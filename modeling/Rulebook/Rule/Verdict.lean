import Rulebook.Rule.Formula

/-!
# Verdicts

The verdict on a record says whether a formula is true of it.  Every comparison
of the formula is judged, whatever the others say, so a comparison that fails
makes the whole formula fail even where a connective has already been decided.
Of several failures the leftmost one counts.

Two numbers compare as doubles.  As soon as one side is a text, both are compared
as texts in lower case, and then they can only be equal or not.
-/

namespace Rulebook

/-- Why a formula has no verdict on a record. -/
inductive EvalError where
  /-- The record has no such field. -/
  | fieldNotFound (field : String)
  /-- The comparator has no meaning for texts. -/
  | notForText (comparator : Comparator)
  deriving DecidableEq

/-- The message of an error. -/
def EvalError.message : EvalError → String
  | .fieldNotFound field => "Field not found: " ++ field
  | .notForText comparator => "Invalid operator " ++ comparator.symbol ++ " for strings"

/-- Whether two values are equal as texts in lower case. -/
def Value.sameText (v w : Value) : Bool := Text.lowered v.shown == Text.lowered w.shown

/-- Whether a comparator holds between the value of a field and a literal. -/
def Comparator.verdict (c : Comparator) (actual literal : Value) : Except EvalError Bool :=
  match actual.number?, literal.number? with
  | some x, some y => .ok (c.holds (x.order y))
  | _, _ =>
    if c.appliesToText then .ok (c.holds (if actual.sameText literal then .eq else .lt))
    else .error (.notForText c)

/-- The verdict of a single comparison. -/
def Comparison.verdict (record : Record) (c : Comparison) : Except EvalError Bool :=
  match record.get? c.field with
  | none => .error (.fieldNotFound c.field)
  | some actual => c.comparator.verdict actual c.literal

namespace Formula

mutual

/-- The verdict of a formula on a record. -/
def verdict (record : Record) : Formula → Except EvalError Bool
  | .leaf c => c.verdict record
  | .joined k parts =>
    match verdicts record parts with
    | .error e => .error e
    | .ok vs => .ok (k.combine vs)

/-- The verdicts of several formulas on a record, from left to right. -/
def verdicts (record : Record) : List Formula → Except EvalError (List Bool)
  | [] => .ok []
  | f :: fs =>
    match verdict record f with
    | .error e => .error e
    | .ok v =>
      match verdicts record fs with
      | .error e => .error e
      | .ok vs => .ok (v :: vs)

end

end Formula

end Rulebook
