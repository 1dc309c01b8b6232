import Rulebook.Number.Shortest

/-!
# JSON values

A JSON value as it was written: the members of an object stay in the order of the
text, and a name may occur twice.  A number is whole if it is written without
point and exponent and fits 64 bits, with or without sign, and else a double.

`render` is the compact text of a value.  Strings escape the quote, the backslash
and the control characters and nothing else.
-/

namespace Rulebook

/-- A JSON value. -/
inductive Json where
  /-- The word `null`. -/
  | null
  /-- A truth value. -/
  | bool (b : Bool)
  /-- A whole number. -/
  | integer (i : Int)
  /-- A number that is not kept whole. -/
  | real (x : Binary64)
  /-- A string. -/
  | string (s : String)
  /-- An array. -/
  | array (items : List Json)
  /-- An object, its members in the order of the text. -/
  | object (members : List (String × Json))
  deriving Inhabited

namespace Json

/-- The name of the kind of a value. -/
def kind : Json → String
  | .null => "null"
  | .bool _ => "boolean"
  | .integer _ | .real _ => "number"
  | .string _ => "string"
  | .array _ => "array"
  | .object _ => "object"

/-- A digit of base sixteen below ten, or a small letter. -/
def hexDigit (n : Nat) : Char := if n < 10 then Char.ofNat (48 + n) else Char.ofNat (87 + n)

/-- A character as it stands in a string. -/
def escaped (c : Char) : List Char :=
  if c = '"' then ['\\', '"']
  else if c = '\\' then ['\\', '\\']
  else if c = '\x08' then ['\\', 'b']
  else if c = '\t' then ['\\', 't']
  else if c = '\n' then ['\\', 'n']
  else if c = '\x0c' then ['\\', 'f']
  else if c = '\r' then ['\\', 'r']
  else if c.toNat < 32 then
    ['\\', 'u', '0', '0', hexDigit (c.toNat / 16), hexDigit (c.toNat % 16)]
  else [c]

/-- A text as a string with its quotes. -/
def quoted (s : String) : List Char := '"' :: s.toList.flatMap escaped ++ ['"']

mutual

/-- The compact text of a value. -/
def render : Json → List Char
  | .null => ['n', 'u', 'l', 'l']
  | .bool true => ['t', 'r', 'u', 'e']
  | .bool false => ['f', 'a', 'l', 's', 'e']
  | .integer i => Digits.signed i
  | .real x => x.data
  | .string s => quoted s
  | .array items => '[' :: renderItems items ++ [']']
  | .object members => '{' :: renderMembers members ++ ['}']

/-- The items of an array with commas between them. -/
def renderItems : List Json → List Char
  | [] => []
  | [j] => render j
  | j :: js => render j ++ ',' :: renderItems js

/-- The members of an object with commas between them. -/
def renderMembers : List (String × Json) → List Char
  | [] => []
  | [(name, j)] => quoted name ++ ':' :: render j
  | (name, j) :: members => quoted name ++ ':' :: render j ++ ',' :: renderMembers members

end

/-- The compact text of a value. -/
def compact (j : Json) : String := String.ofList j.render

example : compact (.object [("a", .array [.integer (-1), .null]), ("b", .string "x\n")]) =
    "\x7b\"a\":[-1,null],\"b\":\"x\\n\"\x7d" := by decide +kernel

end Json

end Rulebook
