import Rulebook.Value

/-!
# Raw values of settings

Before settings have their types they are raw values, as they come from a variable
or from a file.  A text that is a truth value or a numeral is one here as well, so
that a variable can be any of them.
-/

namespace Rulebook

/-- A raw value. -/
inductive Setting where
  /-- Nothing. -/
  | nothing
  /-- A truth value. -/
  | flag (b : Bool)
  /-- A whole number. -/
  | whole (i : Int64)
  /-- A double. -/
  | real (x : Binary64)
  /-- An infinite number. -/
  | infinite (negative : Bool)
  /-- What is no number although it is written for one. -/
  | notANumber
  /-- A text. -/
  | text (s : String)
  /-- A list. -/
  | list (items : List Setting)
  /-- Values under names, in ascending order of these. -/
  | table (entries : List (String × Setting))
  deriving Inhabited

namespace Setting

open Rulebook.Text (lowered)

/-- The raw value of a whole number of 64 bits. -/
def whole? (cs : List Char) : Option Setting :=
  ((Decimal.readInt? cs).bind wholeOf?).map .whole

/-- The raw value of a numeral, or of a word for a number, that need not be whole. -/
def real? (cs : List Char) : Option Setting :=
  match Decimal.read? cs with
  | some (negative, d) =>
    match d.toBinary64? negative with
    | some x => some (.real x)
    | none => some (.infinite negative)
  | none =>
    let (negative, word) := Decimal.readSign cs
    let word := lowered (String.ofList word)
    if word = "inf" ∨ word = "infinity" then some (.infinite negative)
    else if word = "nan" then some .notANumber
    else none

/-- The raw value of a numeral or of a word for a number. -/
def number? (cs : List Char) : Option Setting := whole? cs <|> real? cs

/-- The raw value of a text that a variable has. -/
def ofVariable (s : String) : Setting :=
  if lowered s = "true" then .flag true
  else if lowered s = "false" then .flag false
  else (number? s.toList).getD (.text s)

end Setting

end Rulebook
