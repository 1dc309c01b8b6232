import Rulebook.Rule.Formula
import Rulebook.Rule.Token

/-!
# Reading formulas

The grammar has two rules.  An expression is a primary, or a primary, a
connective and an expression.  A primary is an expression in parentheses or a
field, a comparator and a literal.  So connectives have no precedence and group
to the right.

Every group and every connective opens a level of nesting, and a formula may nest
`maxNesting` levels deep.  `expression` counts the levels that are left, which is
what its recursion is on: the limit is a rule of the language and also the reason
that reading ends.  A level that is one too many is refused before its first
token is looked at.

Every other error names the first token that no formula has in its place, or says
that the tokens end too early.
-/

namespace Rulebook

/-- The number of levels a formula may nest. -/
def maxNesting : Nat := 512

/-- Why tokens, or a text, are no formula.  Where an error says what was found, `none` stands for
the end of the tokens. -/
inductive ParseError where
  /-- The text does not split into lexemes. -/
  | lex (e : LexError)
  /-- There are no tokens. -/
  | empty
  /-- No comparator follows a field. -/
  | expectedComparison (field : String) (found : Option Lexeme)
  /-- No literal follows a comparator. -/
  | expectedValue (field : String) (comparator : Comparator) (found : Option Lexeme)
  /-- A group is not closed. -/
  | expectedClosing (found : Option Lexeme)
  /-- No expression begins with a token. -/
  | unexpected (found : Token)
  /-- The tokens end where an expression is needed. -/
  | unexpectedEnd
  /-- A token follows a complete expression. -/
  | trailing (found : Token)
  /-- The nesting is too deep. -/
  | tooDeep
  deriving DecidableEq

namespace ParseError

/-- What was found, as it is shown in messages. -/
def foundText : Option Lexeme → String
  | some lexeme => lexeme.shown
  | none => "end of input"

/-- The message of an error. -/
def message : ParseError → String
  | .lex e => "Tokenization error: " ++ e.message
  | .empty => "Empty expression"
  | .expectedComparison field found =>
      "Expected comparison operator after field '" ++ field ++ "', found " ++ foundText found
  | .expectedValue field comparator found =>
      "Expected value after '" ++ field ++ " " ++ comparator.symbol ++ "', found " ++
        foundText found
  | .expectedClosing found => "Expected closing parenthesis, found " ++ foundText found
  | .unexpected found =>
      "Unexpected token " ++ found.lexeme.shown ++ " at offset " ++ toString found.offset
  | .unexpectedEnd => "Unexpected end of input"
  | .trailing found =>
      "Unexpected tokens remaining after parsing, starting with " ++ found.lexeme.shown ++
        " at offset " ++ toString found.offset
  | .tooDeep => "Expression nested deeper than " ++ toString maxNesting ++ " levels"

end ParseError

namespace Formula

/-- The lexeme at the front, if there is one. -/
def front : List Token → Option Lexeme
  | [] => none
  | t :: _ => some t.lexeme

/-- The comparison of a field, read from the tokens after the name. -/
def comparisonOf (field : String) : List Token → Except ParseError (Formula × List Token)
  | ⟨.comparator c, _⟩ :: ⟨.value v, _⟩ :: rest => .ok (.leaf ⟨field, c, v⟩, rest)
  | ⟨.comparator c, _⟩ :: rest => .error (.expectedValue field c (front rest))
  | rest => .error (.expectedComparison field (front rest))

/-- A primary, where `inner` reads what stands in parentheses. -/
def primary (inner : List Token → Except ParseError (Formula × List Token)) :
    List Token → Except ParseError (Formula × List Token)
  | [] => .error .unexpectedEnd
  | t :: rest =>
    match t.lexeme with
    | .opening =>
      match inner rest with
      | .error e => .error e
      | .ok (f, ⟨.closing, _⟩ :: rest) => .ok (f, rest)
      | .ok (_, rest) => .error (.expectedClosing (front rest))
    | .field name => comparisonOf name rest
    | _ => .error (.unexpected t)

/-- An expression that may nest a number of levels, its own level included, and the tokens after
it. -/
def expression : Nat → List Token → Except ParseError (Formula × List Token)
  | 0, _ => .error .tooDeep
  | levels + 1, ts =>
    match primary (expression levels) ts with
    | .error e => .error e
    | .ok (f, ⟨.connective k, _⟩ :: rest) =>
      match expression levels rest with
      | .error e => .error e
      | .ok (g, rest) => .ok (.joined k [f, g], rest)
    | .ok (f, rest) => .ok (f, rest)

/-- The formula that the tokens make up, all of them. -/
def ofTokens : List Token → Except ParseError Formula
  | [] => .error .empty
  | ts =>
    match expression maxNesting ts with
    | .error e => .error e
    | .ok (f, []) => .ok f
    | .ok (_, t :: _) => .error (.trailing t)

end Formula

/-- The formula of a rule text. -/
def parseRule (text : String) : Except ParseError Formula :=
  match tokenize text with
  | .error e => .error (.lex e)
  | .ok ts => Formula.ofTokens ts

example : (parseRule "a > 1 or (b < 2 and c = 'x')").toOption.map Formula.text =
    some "a > 1 OR b < 2 AND c = 'x'" := by decide +kernel
example : (parseRule "a > 1 AND").toOption.map Formula.text = none := by decide +kernel

end Rulebook
