import Rulebook.Rule.Operator
import Rulebook.Text.Blank
import Rulebook.Text.Letter
import Rulebook.Value

/-!
# Tokens

A rule text is a sequence of lexemes, the words of the language, with blanks
between them that carry no meaning.  A *token* is what a lexeme stands for and
the offset of the lexeme, counted in bytes of UTF-8 from the beginning of the
text.

The lexemes are the two parentheses, the comparators `>`, `<` and `=`, texts in
single quotes, words and numerals.  A word begins with an alphabetic character
and takes every alphanumeric character after it.  The words `and` and `or` are
connectives in whatever case, every other word is the name of a field in lower
case.  A numeral begins with an ASCII digit and takes the digits and points after
it.  What stands between quotes is read as a literal too, without the blanks at
its ends, so `'18'` is a number.

`tokensAndFault` reads tokens as long as it can and says what stopped it.
`tokenize` is the same for a reader who wants all tokens or none.
-/

namespace Rulebook

/-- What a token stands for. -/
inductive Lexeme where
  /-- An opening parenthesis. -/
  | opening
  /-- A closing parenthesis. -/
  | closing
  /-- The name of a field. -/
  | field (name : String)
  /-- A literal. -/
  | value (v : Value)
  /-- A comparator. -/
  | comparator (c : Comparator)
  /-- A connective. -/
  | connective (k : Connective)
  deriving DecidableEq, Inhabited

/-- A lexeme as it is shown in messages. -/
def Lexeme.shown : Lexeme → String
  | .opening => "'('"
  | .closing => "')'"
  | .field name => "field '" ++ name ++ "'"
  | .value v => "value '" ++ v.shown ++ "'"
  | .comparator c => "'" ++ c.symbol ++ "'"
  | .connective k => "'" ++ k.keyword ++ "'"

/-- A lexeme and the offset it begins at. -/
structure Token where
  /-- What the token stands for. -/
  lexeme : Lexeme
  /-- The offset of its first byte. -/
  offset : Nat
  deriving DecidableEq, Inhabited

/-- Why a text does not split into lexemes. -/
inductive LexError where
  /-- A quote is opened at an offset and never closed. -/
  | unterminated (offset : Nat)
  /-- No lexeme begins with a character. -/
  | unexpected (character : Char) (offset : Nat)
  deriving DecidableEq

/-- The message of an error. -/
def LexError.message : LexError → String
  | .unterminated offset =>
      "Unterminated string literal starting at offset " ++ toString offset
  | .unexpected c offset =>
      "Unexpected character '" ++ String.singleton c ++ "' at offset " ++ toString offset

namespace Token

open Rulebook.Text (isAlphabetic isAlphanumeric isBlank isDigit)

/-- The number of bytes of a text in UTF-8. -/
def width : List Char → Nat
  | [] => 0
  | c :: cs => c.utf8Size + width cs

/-- What a word stands for. -/
def ofWord (word : List Char) : Lexeme :=
  match Connective.ofKeyword? (String.ofList word) with
  | some k => .connective k
  | none => .field (String.ofList (Text.lower word))

/-- What a numeral, or the text between two quotes, stands for. -/
def ofLiteral (cs : List Char) : Lexeme := .value (Value.ofLiteral (String.ofList cs))

/-- Whether a character may stand in a numeral. -/
def isNumeral (c : Char) : Bool := isDigit c || c == '.'

/-- A lexeme cut from the front of a text. -/
structure Cut where
  /-- What the lexeme stands for. -/
  lexeme : Lexeme
  /-- The number of its bytes. -/
  width : Nat
  /-- The text after it. -/
  rest : List Char

/-- The lexeme that begins with a character at an offset, given the characters after it. -/
def cut (offset : Nat) (c : Char) (cs : List Char) : Except LexError Cut :=
  if c = '(' then .ok ⟨.opening, 1, cs⟩
  else if c = ')' then .ok ⟨.closing, 1, cs⟩
  else if c = '>' then .ok ⟨.comparator .gt, 1, cs⟩
  else if c = '<' then .ok ⟨.comparator .lt, 1, cs⟩
  else if c = '=' then .ok ⟨.comparator .eq, 1, cs⟩
  else if c = '\'' then
    let content := cs.takeWhile (· ≠ '\'')
    match cs.dropWhile (· ≠ '\'') with
    | [] => .error (.unterminated offset)
    | _ :: rest => .ok ⟨ofLiteral (Text.trim content), width content + 2, rest⟩
  else if isAlphabetic c then
    let word := c :: cs.takeWhile isAlphanumeric
    .ok ⟨ofWord word, width word, cs.dropWhile isAlphanumeric⟩
  else if isDigit c then
    let numeral := c :: cs.takeWhile isNumeral
    .ok ⟨ofLiteral numeral, width numeral, cs.dropWhile isNumeral⟩
  else .error (.unexpected c offset)

theorem length_dropWhile_le (p : Char → Bool) (cs : List Char) :
    (cs.dropWhile p).length ≤ cs.length :=
  (List.dropWhile_sublist p).length_le

/-- A cut leaves no more than what follows its first character. -/
theorem length_rest_le {offset : Nat} {c : Char} {cs : List Char} {k : Cut}
    (h : cut offset c cs = .ok k) : k.rest.length ≤ cs.length := by
  unfold cut at h
  repeat' split at h
  all_goals first
    | (cases h; done)
    | (cases h; exact Nat.le_refl _)
    | (cases h; exact length_dropWhile_le _ _)
    | skip
  · next rest heq =>
    cases h
    have := length_dropWhile_le (· ≠ '\'') cs
    rw [heq] at this
    exact Nat.le_of_succ_le this

/-- The tokens of a text that begins at an offset, up to the first place where no lexeme can be
cut, and what is wrong there. -/
def scan (offset : Nat) : List Char → List Token × Option LexError
  | [] => ([], none)
  | c :: cs =>
    if isBlank c then scan (offset + c.utf8Size) cs
    else
      match h : cut offset c cs with
      | .error e => ([], some e)
      | .ok k =>
        have : k.rest.length ≤ cs.length := length_rest_le h
        let (tokens, fault) := scan (offset + k.width) k.rest
        (⟨k.lexeme, offset⟩ :: tokens, fault)
termination_by cs => cs.length

end Token

/-- The tokens of a text before the first fault, and that fault. -/
def tokensAndFault (text : String) : List Token × Option LexError := Token.scan 0 text.toList

/-- The tokens of a text, or its first fault. -/
def tokenize (text : String) : Except LexError (List Token) :=
  match tokensAndFault text with
  | (tokens, none) => .ok tokens
  | (_, some e) => .error e

example : tokensAndFault "a >18" =
    ([⟨.field "a", 0⟩, ⟨.comparator .gt, 2⟩, ⟨.value (.integer 18), 3⟩], none) := by
  decide +kernel
example : tokensAndFault "é = ' 5 '" =
    ([⟨.field "é", 0⟩, ⟨.comparator .eq, 3⟩, ⟨.value (.integer 5), 5⟩], none) := by
  decide +kernel
example : tokensAndFault "é = 'x" =
    ([⟨.field "é", 0⟩, ⟨.comparator .eq, 3⟩], some (.unterminated 5)) := by decide +kernel
example : tokensAndFault "!" = ([], some (.unexpected '!' 0)) := by decide +kernel

end Rulebook
