import Rulebook.Text.LowerCase

/-!
# Comparators and connectives

A comparator compares a field of a record with a literal, a connective joins
formulas.  Numbers take all six comparators.  Texts can only be equal or not, so
for texts two of the six have a meaning.
-/

namespace Rulebook

/-- How a field is compared with a literal. -/
inductive Comparator where
  /-- Greater. -/
  | gt
  /-- Less. -/
  | lt
  /-- Equal. -/
  | eq
  /-- Greater or equal. -/
  | ge
  /-- Less or equal. -/
  | le
  /-- Not equal. -/
  | ne
  deriving DecidableEq

namespace Comparator

/-- The comparators in the order of their declaration. -/
def all : List Comparator := [.gt, .lt, .eq, .ge, .le, .ne]

/-- The symbol of a comparator. -/
def symbol : Comparator → String
  | .gt => ">"
  | .lt => "<"
  | .eq => "="
  | .ge => ">="
  | .le => "<="
  | .ne => "!="

/-- The comparator with a symbol. -/
def ofSymbol? (s : String) : Option Comparator := all.find? (·.symbol == s)

/-- Whether a comparator has a meaning for texts. -/
def appliesToText : Comparator → Bool
  | .eq | .ne => true
  | _ => false

/-- Whether a comparator holds of two numbers that compare in a given way. -/
def holds : Comparator → Ordering → Bool
  | .gt, o => o == .gt
  | .lt, o => o == .lt
  | .eq, o => o == .eq
  | .ge, o => o != .lt
  | .le, o => o != .gt
  | .ne, o => o != .eq

theorem ofSymbol?_symbol (c : Comparator) : ofSymbol? c.symbol = some c := by
  cases c <;> decide

end Comparator

/-- How formulas are joined. -/
inductive Connective where
  /-- Every formula must be true. -/
  | and
  /-- Some formula must be true. -/
  | or
  deriving DecidableEq

namespace Connective

/-- The word that stands for a connective. -/
def keyword : Connective → String
  | .and => "AND"
  | .or => "OR"

/-- The connective a word stands for, in whatever case its letters are. -/
def ofKeyword? (word : String) : Option Connective :=
  if Text.sameIgnoringAsciiCase word "and" then some .and
  else if Text.sameIgnoringAsciiCase word "or" then some .or
  else none

/-- The verdict on formulas joined by a connective. -/
def combine : Connective → List Bool → Bool
  | .and, verdicts => verdicts.all id
  | .or, verdicts => verdicts.any id

end Connective

end Rulebook
