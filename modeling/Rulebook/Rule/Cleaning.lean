import Rulebook.Text.Blank
import Rulebook.Text.LowerCase

/-!
# Cleaning and combining rule texts

Rules are stored in clean form: in lower case, with single spaces where the text
had blanks and none at its ends.  Cleaning does not look at quotes, so it changes
what stands between them in the same way.

Several rule texts combine into one by joining them with `AND`.  The join is one
of texts.  A connective takes everything to its right, so an `or` of one text
takes in the texts after it.
-/

namespace Rulebook

open Rulebook.Text (lower lowered words)

/-- The clean form of a rule text. -/
def clean (text : String) : String :=
  " ".intercalate ((words (lower text.toList)).map String.ofList)

/-- The rule texts joined into one. -/
def combine (texts : List String) : String := " AND ".intercalate (texts.map lowered)

example : clean "  Age  >\t18 " = "age > 18" := by decide +kernel
example : combine ["a > 1", "B > 2"] = "a > 1 AND b > 2" := by decide +kernel

end Rulebook
