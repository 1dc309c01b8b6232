import Rulebook.Number.Binary64
import Rulebook.Number.Digits

/-!
# Decimals

A *decimal* is a whole coefficient times a power of ten.  Numerals of rule texts
are read as signed decimals and then rounded once to the nearest double, or, if
they are plain digits in range, kept as whole numbers.

A numeral has an optional sign, digits with at most one point among or around
them, at least one digit in all, and optionally an exponent with a sign of its
own.  `.5`, `5.` and `+1e3` are numerals; `.`, `1e` and `1_000` are not.
-/

namespace Rulebook

open Rulebook.Text (isDigit)

/-- A whole coefficient times a power of ten. -/
structure Decimal where
  /-- The coefficient. -/
  coefficient : Nat
  /-- The exponent of ten. -/
  exponent : Int
  deriving DecidableEq

namespace Decimal

/-! ## Rounding to a double -/

/-- The rank nearest to a decimal.  An exponent so far from zero that the decimal is infinite, or
below half the smallest magnitude, is not raised to a power. -/
def rank (d : Decimal) : Nat :=
  if d.coefficient = 0 then 0
  else if 0 ≤ d.exponent then
    if 310 < d.exponent then Binary64.limit
    else Binary64.rankOf (d.coefficient * pow10 d.exponent.toNat) 1
  else
    if Nat.log2 d.coefficient + 1080 < 3 * d.exponent.natAbs then 0
    else Binary64.rankOf d.coefficient (pow10 d.exponent.natAbs)

/-- The double nearest to a signed decimal, unless that is infinite. -/
def toBinary64? (negative : Bool) (d : Decimal) : Option Binary64 :=
  if h : d.rank < Binary64.limit then some ⟨negative, _, h⟩ else none

/-! ## Reading numerals -/

/-- The sign that a text begins with, whether it is a minus, and what follows it. -/
def readSign : List Char → Bool × List Char
  | '-' :: cs => (true, cs)
  | '+' :: cs => (false, cs)
  | cs => (false, cs)

/-- A whole number: an optional sign and at least one digit, and nothing else. -/
def readInt? (cs : List Char) : Option Int :=
  let (negative, ds) := readSign cs
  if !ds.isEmpty && ds.all isDigit then
    some (if negative then -(Digits.value ds) else Digits.value ds)
  else none

/-- The exponent that may end a numeral, zero where there is none. -/
def readExponent? : List Char → Option Int
  | [] => some 0
  | c :: cs => if c = 'e' ∨ c = 'E' then readInt? cs else none

/-- The digits after the point that may follow the whole digits of a numeral, and the rest. -/
def readFraction : List Char → List Char × List Char
  | '.' :: cs => (cs.takeWhile isDigit, cs.dropWhile isDigit)
  | cs => ([], cs)

/-- A numeral: its sign and its magnitude. -/
def read? (cs : List Char) : Option (Bool × Decimal) :=
  let (negative, cs) := readSign cs
  let whole := cs.takeWhile isDigit
  let (fraction, rest) := readFraction (cs.dropWhile isDigit)
  if whole.isEmpty && fraction.isEmpty then none
  else (readExponent? rest).map fun e =>
    (negative, ⟨Digits.value (whole ++ fraction), e - fraction.length⟩)

/-! ## Writing -/

/-- A decimal without an exponent: zeros where the digits do not reach the point, and a point only
before a fraction. -/
def positional (d : Decimal) : List Char :=
  let ds := Digits.digits d.coefficient
  if 0 ≤ d.exponent then ds ++ List.replicate d.exponent.toNat '0'
  else
    let places := d.exponent.natAbs
    if places < ds.length then ds.take (ds.length - places) ++ '.' :: ds.drop (ds.length - places)
    else '0' :: '.' :: List.replicate (places - ds.length) '0' ++ ds

example : readInt? ['+', '0', '7'] = some 7 ∧ readInt? ['-'] = none := by decide
example : read? ['.', '5'] = some (false, ⟨5, -1⟩) ∧ read? ['.'] = none := by decide
example : read? ['-', '1', '.', 'e', '3'] = some (true, ⟨1, 3⟩) := by decide
example : read? ['1', 'e'] = none ∧ read? ['1', '.', '2', '.', '3'] = none := by decide
example : (Decimal.mk 1 (-2000000000000)).rank = 0 := by decide +kernel
example : positional ⟨125, -2⟩ = ['1', '.', '2', '5'] := by decide +kernel
example : positional ⟨5, -3⟩ = ['0', '.', '0', '0', '5'] := by decide +kernel

end Decimal

end Rulebook
