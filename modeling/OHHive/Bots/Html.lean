import Mathlib.Algebra.GroupWithZero.Nat
import OHHive.Foundation.Lines
import OHHive.Foundation.Replace
import OHHive.LocalHub.Basics

/-! The text of a fetched page. Elements that hold no text are dropped, tags and comments are cut
out, the common entities are decoded one after the other and blank space is collapsed. -/

namespace OHHive.Bots.Html

open Foundation

section Searching

/-- The lower-cased document starts with the marker. -/
def opens (marker : String) (html : Text) : Bool :=
  marker.toList.isPrefixOf (html.map Char.toLower)

/-- What follows the first occurrence of a marker. -/
def afterFirst (marker : String) : Text → Option Text
  | [] => none
  | char :: rest =>
    if opens marker (char :: rest) then some ((char :: rest).drop marker.toList.length)
    else afterFirst marker rest

/-- What precedes the first occurrence of a marker. -/
def beforeFirst (marker : String) : Text → Option Text
  | [] => none
  | char :: rest =>
    if opens marker (char :: rest) then some [] else (beforeFirst marker rest).map (char :: ·)

end Searching

section Text

def stripTags (inTag : Bool) : Text → Text
  | [] => []
  | char :: rest =>
    if char = '<' then stripTags true rest
    else if char = '>' then stripTags false rest
    else if inTag then stripTags true rest
    else char :: stripTags false rest

def decodeEntities (text : Text) : Text :=
  [("&nbsp;", " "), ("&amp;", "&"), ("&lt;", "<"), ("&gt;", ">"), ("&quot;", "\""), ("&#39;", "'"),
    ("&apos;", "'")].foldl
    (fun text (entity, char) => replaceAll entity.toList char.toList text) text

/-- `str::split_whitespace`, with the characters of the word being read in reverse. -/
def words (word : Text) : Text → List Text
  | [] => if word.isEmpty then [] else [word.reverse]
  | char :: rest =>
    if isWhitespace char then
      if word.isEmpty then words [] rest else word.reverse :: words [] rest
    else words (char :: word) rest

def joinWords : List Text → Text
  | [] => []
  | [word] => word
  | word :: next :: rest => word ++ ' ' :: joinWords (next :: rest)

def collapseLines (blank : Nat) : List Text → Text
  | [] => []
  | line :: rest =>
    let line := joinWords (words [] line)
    if line.isEmpty then
      if blank + 1 > 1 then collapseLines (blank + 1) rest
      else line ++ '\n' :: collapseLines (blank + 1) rest
    else line ++ '\n' :: collapseLines 0 rest

def trim (text : Text) : Text :=
  ((text.dropWhile isWhitespace).reverse.dropWhile isWhitespace).reverse

def collapse (text : Text) : Text := trim (collapseLines 0 (lines text))

end Text

section Scanning

def droppedElements : List String := ["script", "style", "noscript", "template", "svg"]

def blockTags : List String :=
  ["<p", "<div", "<br", "<li", "<h1", "<h2", "<h3", "<h4", "<h5", "<h6", "<tr", "<td", "<th",
    "<section", "<article", "<header", "<footer", "<blockquote", "<pre", "</p", "</div", "</li",
    "</h", "</tr", "</section", "</article", "<table", "</table", "<ul", "</ul", "<ol", "</ol"]

def droppedElement? (html : Text) : Option String :=
  droppedElements.find? (fun name => opens ("<" ++ name) html)

/-- Where the scan goes on after the markup that starts with the `<` of `html`. -/
def afterMarkup (html : Text) : Text :=
  match droppedElement? html with
  | some name => (afterFirst ">" ((afterFirst ("</" ++ name) html).getD [])).getD []
  | none =>
    if opens "<!--" html then (afterFirst "-->" html).getD [] else (afterFirst ">" html).getD []

/-- The line break that a block tag leaves. -/
def lineBreak (html : Text) : Text :=
  if (droppedElement? html).isNone && !opens "<!--" html &&
    blockTags.any (fun tag => opens tag html) then ['\n'] else []

/-- The body of the scan, `skip` counting the characters of the last markup still to pass. -/
def bodyText (skip : Nat) : Text → Text
  | [] => []
  | char :: rest =>
    if skip > 0 then bodyText (skip - 1) rest
    else if char = '<' then
      lineBreak (char :: rest) ++ bodyText (rest.length - (afterMarkup (char :: rest)).length) rest
    else char :: bodyText 0 rest

/-- What the document holds between its first `<title…>` and the next `</title>`. -/
def titleText (html : Text) : Option Text := do
  let opened ← afterFirst "<title" html
  let start ← afterFirst ">" opened
  beforeFirst "</title>" start

def htmlTitle (html : Text) : Option Text :=
  ((titleText html).map (fun text => collapse (decodeEntities (stripTags false text)))).filter
    (fun title => !title.isEmpty)

def htmlToText (html : Text) : Option Text × Text :=
  (htmlTitle html, collapse (decodeEntities (bodyText 0 html)))

end Scanning

/-- A page reduced to its text. -/
example : htmlToText "<title> A&#39;s </title><script>x<y</script><p>1 &amp; 2<br>3".toList =
    (some "A's".toList, "A's\n1 & 2\n3".toList) := by decide +kernel

end OHHive.Bots.Html
