import Rulebook.Text.Letter
import Rulebook.Text.LowerCase

/-!
# Media types

A media type is a type, a slash and a subtype, and then parameters after
semicolons.  A parameter is a name and a value, which may stand in quotes.  A
subtype may have a suffix after a plus sign, the last one that is not its first
character.

A body is taken for JSON if its media type is `application/json`, or of type
`application` with the suffix `json`.  The case of ASCII letters does not count.
-/

namespace Rulebook

namespace MediaType

open Rulebook.Text (sameIgnoringAsciiCase isDigit)

/-! ## Characters -/

/-- Whether a character may be in a name. -/
def isTokenChar (c : Char) : Bool :=
  isDigit c || ('a' ≤ c && c ≤ 'z') || ('A' ≤ c && c ≤ 'Z') ||
    ['!', '#', '$', '%', '&', '\'', '*', '+', '-', '.', '^', '_', '\x60', '|', '~'].contains c

/-- Whether a character may be in a header at all. -/
def isHeaderChar (c : Char) : Bool := c == '\t' || (' ' ≤ c && c ≤ '~')

/-! ## Parameters -/

/-- Where in a parameter a character is read. -/
inductive Place where
  /-- In the name, which is empty so far or not. -/
  | name (empty : Bool)
  /-- In a value without quotes, which is empty so far or not. -/
  | value (empty : Bool)
  /-- In a value in quotes, which is empty so far or not. -/
  | quoted (empty : Bool)
  /-- After the closing quote of a value. -/
  | afterQuote

/-- The place after one more character, if it may be there. -/
def Place.step : Place → Char → Option Place
  | .name true, c => if c = ' ' then some (.name true) else if isTokenChar c then some (.name false)
      else none
  | .name false, c => if c = '=' then some (.value true) else if isTokenChar c then
      some (.name false) else none
  | .value true, c => if c = '"' then some (.quoted true) else if isTokenChar c then
      some (.value false) else none
  | .value false, c => if c = ';' then some (.name true) else if isTokenChar c then
      some (.value false) else none
  | .quoted true, c => if ' ' ≤ c then some (.quoted false) else none
  | .quoted false, c => if c = '"' then some .afterQuote else if ' ' ≤ c then some (.quoted false)
      else none
  | .afterQuote, c => if c = ';' then some (.name true) else if c = ' ' then some .afterQuote
      else none

/-- Whether parameters may end here. -/
def Place.mayEnd : Place → Bool
  | .name empty => empty
  | .quoted _ => false
  | _ => true

/-- Whether a text is parameters with semicolons between them. -/
def areParameters (cs : List Char) : Bool :=
  (cs.foldlM Place.step (.name true)).any Place.mayEnd

/-! ## Types -/

/-- The parts of a subtype around its last plus sign that is not its first character. -/
def splitSuffix (subtype : List Char) : List Char × Option (List Char) :=
  match subtype with
  | [] => ([], none)
  | c :: cs =>
    let suffix := cs.reverse.takeWhile (· != '+')
    if suffix.length = cs.length then (c :: cs, none)
    else (c :: cs.take (cs.length - suffix.length - 1), some suffix.reverse)

/-- Whether a subtype is `json` or has the suffix `json`. -/
def isJsonSubtype (subtype : List Char) : Bool :=
  let (name, suffix) := splitSuffix subtype
  sameIgnoringAsciiCase (String.ofList name) "json" ||
    suffix.any fun s => sameIgnoringAsciiCase (String.ofList s) "json"

/-- Whether a media type is one of JSON. -/
def isJson (text : String) : Bool :=
  let cs := text.toList
  let type := cs.takeWhile (· != '/')
  let rest := cs.drop (type.length + 1)
  let subtype := rest.takeWhile (· != ';')
  cs.all isHeaderChar && sameIgnoringAsciiCase (String.ofList type) "application" &&
    subtype.all isTokenChar && isJsonSubtype subtype &&
    areParameters (rest.drop (subtype.length + 1))

example : isJson "application/json" ∧ isJson "Application/Problem+JSON; charset=utf-8" := by
  decide +kernel
example : isJson "application/json;a=\"b;c\" ; d=" ∧ isJson "application/json;" := by decide +kernel
example : ¬ isJson "text/json" ∧ ¬ isJson "application/json,text/plain" ∧ ¬ isJson "json" ∧
    ¬ isJson "application/*" ∧ ¬ isJson "application/json ;a=b" ∧
    ¬ isJson "application/json;a" := by
  decide +kernel

end MediaType

end Rulebook
