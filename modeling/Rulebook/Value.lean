import Rulebook.Number.Shortest
import Rulebook.Table
import Rulebook.Text.LowerCase

/-!
# Values

A value is a whole number of 64 bits, a finite double or a text.  The literals of
a rule and the entries of a record are values of the same type.

A literal is read from raw text in this order: as a whole number if it is one and
is in range, else as the nearest double if it is a numeral and is not infinite,
else as the text itself.  So a run of digits just beyond 64 bits is a double, and
a run beyond the range of doubles stays a text.
-/

namespace Rulebook

/-- A whole number of 64 bits with its sign, if it is in range. -/
def wholeOf? (i : Int) : Option Int64 :=
  if -9223372036854775808 ≤ i ∧ i ≤ 9223372036854775807 then some (Int64.ofInt i) else none

/-- A literal of a rule or an entry of a record. -/
inductive Value where
  /-- A whole number. -/
  | integer (i : Int64)
  /-- A double. -/
  | real (x : Binary64)
  /-- A text. -/
  | text (s : String)
  deriving DecidableEq, Inhabited

/-- A named value for every field that a rule may ask for. -/
abbrev Record := Table Value

namespace Value

/-- The double a numeral stands for, unless it is no numeral or an infinite one. -/
def realOf? (cs : List Char) : Option Binary64 :=
  (Decimal.read? cs).bind fun (negative, d) => d.toBinary64? negative

/-- The value of a literal as it was written. -/
def ofLiteral (raw : String) : Value :=
  match (Decimal.readInt? raw.toList).bind wholeOf? with
  | some i => .integer i
  | none =>
    match realOf? raw.toList with
    | some x => .real x
    | none => .text raw

/-- A number as a double, rounded if it is a whole number of more than 53 bits. -/
def number? : Value → Option Binary64
  | .integer i => some (Binary64.ofInt i.toInt)
  | .real x => some x
  | .text _ => none

/-- The text of a value, which for a text is the text itself. -/
def shown : Value → String
  | .integer i => String.ofList (Digits.signed i.toInt)
  | .real x => String.ofList x.plain
  | .text s => s

/-- Whether two values are of one kind and equal.  The zeros of either sign are equal. -/
def same : Value → Value → Bool
  | .integer i, .integer j => i == j
  | .real x, .real y => x.same y
  | .text s, .text t => s == t
  | _, _ => false

example : ofLiteral "007" = .integer 7 := by decide +kernel
example : ofLiteral "9223372036854775807" = .integer 9223372036854775807 := by decide +kernel
example : ofLiteral "9223372036854775808" = .real (Binary64.ofQuotient false (pow2 63) 1) := by
  decide +kernel
example : ofLiteral "1.2.3" = .text "1.2.3" ∧ ofLiteral "inf" = .text "inf" := by decide +kernel

end Value

end Rulebook
