/-!
# Editions of YAML

YAML is read in two editions.  Rule files are in the first, which is strict about
characters and tabs, and settings are in the second, which is strict about columns.
Both have the same blocks, flows and scalars.  Where they differ, a definition
takes the edition as an argument, and this module holds the characters that an
edition tells apart.
-/

namespace Rulebook

namespace Yaml

/-- An edition of YAML. -/
inductive Edition where
  /-- The edition of rule files. -/
  | first
  /-- The edition of settings. -/
  | second
  deriving DecidableEq

/-- A space or a tab. -/
def isGap (c : Char) : Bool := c == ' ' || c == '\t'

/-- The characters that set off the parts of a flow. -/
def isFlowMark (c : Char) : Bool :=
  c == ',' || c == '[' || c == ']' || c == '\x7b' || c == '\x7d'

/-- The characters of simple names. -/
def isNameChar (c : Char) : Bool := c.isAlphanum || c == '-' || c == '_'

/-- Whether a character ends a line.  Only the first edition knows the ends of lines beyond
ASCII. -/
def isBreak (e : Edition) (c : Char) : Bool :=
  c == '\n' || c == '\r' ||
    (e == .first && (c == '\x85' || c.toNat == 0x2028 || c.toNat == 0x2029))

/-- How the end of a line reads that comes first, and how many characters it has.  The separators of
lines and paragraphs stay what they are. -/
def lineEnd? (e : Edition) : List Char → Option (Char × Nat)
  | '\r' :: '\n' :: _ => some ('\n', 2)
  | c :: _ =>
    if !isBreak e c then none else if c.toNat < 0x2028 then some ('\n', 1) else some (c, 1)
  | [] => none

/-- Whether the line ends here. -/
def atLineEnd (e : Edition) : List Char → Bool
  | [] => true
  | c :: _ => isBreak e c

/-- Whether the line ends here or a space or tab comes first. -/
def atGap (e : Edition) : List Char → Bool
  | [] => true
  | c :: _ => isGap c || isBreak e c

/-- Whether a character sets off the parts of a flow, and comes first. -/
def atFlowMark (cs : List Char) : Bool := (cs.head?).any isFlowMark

/-- Whether a character may stand in a text of the first edition. -/
def isReadable (c : Char) : Bool :=
  c == '\t' || c == '\n' || c == '\r' || (' ' ≤ c && c ≤ '~') || c == '\x85' ||
    (0xA0 ≤ c.toNat && c.toNat ≠ 0xFFFE && c.toNat ≠ 0xFFFF)

/-- The characters of a text that are read: `none` if one of them must not be there.  The second
edition does not look beyond a zero character. -/
def charsOf? (e : Edition) (text : String) : Option (List Char) :=
  match e with
  | .first => if text.toList.all isReadable then some text.toList else none
  | .second => some (text.toList.takeWhile (· != '\x00'))

example : lineEnd? .second ['\r', '\n', 'a'] = some ('\n', 2) := rfl
example : lineEnd? .first ['\x85'] = some ('\n', 1) ∧ lineEnd? .second ['\x85'] = none := by decide
example : lineEnd? .first ['\u2028', 'a'] = some ('\u2028', 1) := by decide

end Yaml

end Rulebook
