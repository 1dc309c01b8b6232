import Rulebook.Rule.Operator
import Rulebook.Value

/-!
# Formulas

A formula is a comparison of a field with a literal, or formulas joined by a
connective.  Reading a rule always joins two formulas at a time.  Formulas from
other sources may join any number of them, none included.

`comparisons` lists the leaves of a formula from left to right.  The text of a
formula writes a comparison as it is read, and puts parentheses around a joined
formula that others follow.  The last of several formulas needs none, because a
connective takes everything to its right.
-/

namespace Rulebook

/-- A field of the record, a comparator and the literal it is compared with. -/
structure Comparison where
  /-- The name of the field. -/
  field : String
  /-- The comparator. -/
  comparator : Comparator
  /-- The literal. -/
  literal : Value
  deriving DecidableEq

/-- A condition on records. -/
inductive Formula where
  /-- A single comparison. -/
  | leaf (comparison : Comparison)
  /-- Formulas joined by a connective. -/
  | joined (connective : Connective) (parts : List Formula)

namespace Formula

/-- Whether a formula is a single comparison. -/
def isLeaf : Formula → Bool
  | .leaf _ => true
  | .joined _ _ => false

/-! ## Leaves -/

mutual

/-- The comparisons of a formula from left to right. -/
def comparisons : Formula → List Comparison
  | .leaf c => [c]
  | .joined _ parts => comparisonsOfAll parts

/-- The comparisons of several formulas from left to right. -/
def comparisonsOfAll : List Formula → List Comparison
  | [] => []
  | f :: fs => comparisons f ++ comparisonsOfAll fs

end

/-- The names of the fields a formula asks for, from left to right. -/
def fields (f : Formula) : List String := f.comparisons.map (·.field)

/-! ## Equality -/

mutual

/-- Whether two formulas are built alike from equal parts.  A whole number and a double are never
equal, the zeros of either sign are. -/
def same : Formula → Formula → Bool
  | .leaf c, .leaf d =>
      c.field == d.field && c.comparator == d.comparator && c.literal.same d.literal
  | .joined k fs, .joined l gs => k == l && sameAll fs gs
  | _, _ => false

/-- Whether two lists of formulas are of one length and pairwise the same. -/
def sameAll : List Formula → List Formula → Bool
  | [], [] => true
  | f :: fs, g :: gs => same f g && sameAll fs gs
  | _, _ => false

end

/-! ## Text -/

/-- A literal as it is written in a rule: a text in quotes, and a whole double below `1e15` with a
zero after the point, which keeps it apart from a whole number. -/
def literalText : Value → String
  | .text s => "'" ++ s ++ "'"
  | .integer i => (Value.integer i).shown
  | .real x =>
      if x.isWhole && x.truncated < pow10 15 then String.ofList x.withOneDecimal
      else String.ofList x.plain

/-- A comparison as it is written in a rule. -/
def comparisonText (c : Comparison) : String :=
  c.field ++ " " ++ c.comparator.symbol ++ " " ++ literalText c.literal

mutual

/-- A formula as it is written in a rule. -/
def text : Formula → String
  | .leaf c => comparisonText c
  | .joined k parts => textOfAll k parts

/-- Formulas joined by a connective as they are written in a rule. -/
def textOfAll (k : Connective) : List Formula → String
  | [] => ""
  | [f] => text f
  | f :: fs => enclosed f ++ " " ++ k.keyword ++ " " ++ textOfAll k fs

/-- A formula that others follow: in parentheses if it is joined. -/
def enclosed : Formula → String
  | .leaf c => comparisonText c
  | .joined k parts => "(" ++ textOfAll k parts ++ ")"

end

example :
    text (.joined .and
      [.joined .or [.leaf ⟨"a", .gt, .integer 1⟩, .leaf ⟨"b", .lt, .integer 2⟩],
        .leaf ⟨"c", .eq, .text "x"⟩]) = "(a > 1 OR b < 2) AND c = 'x'" := by decide +kernel

end Formula

end Rulebook
