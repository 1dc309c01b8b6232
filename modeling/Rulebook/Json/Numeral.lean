import Rulebook.Json.Basic

/-!
# JSON numbers

A JSON number has an optional minus, whole digits without a leading zero, an
optional fraction and an optional exponent.

The double of a number is not always the nearest one.  The digits make up a
*significand* as long as it fits 64 bits; whole digits beyond that only count for
the exponent and digits of the fraction are left out.  The significand is rounded
to a double first, and then multiplied or divided once by the double nearest to
the power of ten.  Divisions by more than `10 ^ 308` are done in steps of that
size.  So a number of up to 15 digits and a small exponent becomes its nearest
double, and others may be off in the last place.

A number whose double would be infinite is refused.
-/

namespace Rulebook.Json

open Rulebook.Text (isDigit)

/-- A JSON number as it was written. -/
structure Numeral where
  /-- Whether a minus stands in front. -/
  negative : Bool
  /-- The digits before the point. -/
  whole : List Char
  /-- The digits after the point, if there is one. -/
  fraction : Option (List Char)
  /-- The exponent, whether it is negative and its digits, if there is one. -/
  exponent : Option (Bool × List Char)

namespace Numeral

/-! ## Reading -/

/-- The digits at the front of a text, at least one, and the text after them. -/
def readDigits? (cs : List Char) : Option (List Char × List Char) :=
  let ds := cs.takeWhile isDigit
  if ds.isEmpty then none else some (ds, cs.dropWhile isDigit)

/-- The digits before the point: a zero alone, or digits that begin with another digit. -/
def readWhole? (cs : List Char) : Option (List Char × List Char) :=
  match readDigits? cs with
  | some ('0' :: _ :: _, _) => none
  | r => r

/-- The fraction at the front of a text, if there is one. -/
def readFraction? : List Char → Option (Option (List Char) × List Char)
  | '.' :: cs => (readDigits? cs).map fun (ds, rest) => (some ds, rest)
  | cs => some (none, cs)

/-- The exponent at the front of a text, if there is one. -/
def readExponent? : List Char → Option (Option (Bool × List Char) × List Char)
  | c :: cs =>
    if c = 'e' ∨ c = 'E' then
      let (negative, cs) := Decimal.readSign cs
      (readDigits? cs).map fun (ds, rest) => (some (negative, ds), rest)
    else some (none, c :: cs)
  | [] => some (none, [])

/-- The minus at the front of a text, if there is one. -/
def readMinus : List Char → Bool × List Char
  | '-' :: cs => (true, cs)
  | cs => (false, cs)

/-- The number at the front of a text and the text after it. -/
def read? (cs : List Char) : Option (Numeral × List Char) := do
  let (negative, cs) := readMinus cs
  let (whole, cs) ← readWhole? cs
  let (fraction, cs) ← readFraction? cs
  let (exponent, cs) ← readExponent? cs
  pure (⟨negative, whole, fraction, exponent⟩, cs)

/-! ## Value -/

/-- The significand after the digits that still fit 64 bits, and the digits that do not. -/
def absorb (significand : Nat) : List Char → Nat × List Char
  | [] => (significand, [])
  | c :: cs =>
    let next := Digits.valueAfter significand [c]
    if next < pow2 64 then absorb next cs else (significand, c :: cs)

/-- The rank nearest to a power of ten. -/
def tenTo (power : Nat) : Nat := (Decimal.mk 1 power).rank

/-- A magnitude divided by a power of ten. -/
def divided (rank power : Nat) : Nat :=
  if power ≤ 308 then Binary64.quotientRank rank (tenTo power)
  else if rank = 0 then 0
  else divided (Binary64.quotientRank rank (tenTo 308)) (power - 308)
termination_by power
decreasing_by omega

/-- The magnitude of a significand times a power of ten, which is infinite if it is not below
`Binary64.limit`. -/
def scaled (significand : Nat) (exponent : Int) : Nat :=
  let rank := Binary64.rankOf significand 1
  if exponent < 0 then divided rank exponent.natAbs
  else if 308 < exponent then if rank = 0 then 0 else Binary64.limit
  else Binary64.productRank rank (tenTo exponent.toNat)

/-- A whole number of 32 bits nearest to a number. -/
def clamped (i : Int) : Int := max (-2147483648) (min i 2147483647)

/-- The magnitude of a number that is not kept whole. -/
def magnitude (n : Numeral) : Nat :=
  let (s, beyond) := absorb 0 n.whole
  let (s, e) : Nat × Int :=
    match n.fraction with
    | none => (s, beyond.length)
    | some ds =>
      let (s', left) := absorb s ds
      (s', (beyond.length : Int) - (ds.length - left.length : Nat))
  match n.exponent with
  | none => scaled s e
  | some (negative, ds) =>
    let shift := Digits.value ds
    if pow2 31 ≤ shift then if s = 0 ∨ negative then 0 else Binary64.limit
    else scaled s (clamped (if negative then e - shift else e + shift))

/-- The whole number that a number without fraction and exponent is kept as, if it fits 64 bits.
Negative zero is not whole. -/
def integer? (n : Numeral) : Option Int :=
  if n.fraction.isSome || n.exponent.isSome then none
  else
    let s := Digits.value n.whole
    if n.negative then if 0 < s ∧ s ≤ pow2 63 then some (-s) else none
    else if s < pow2 64 then some s else none

/-- The value of a number, unless it is infinite. -/
def toJson? (n : Numeral) : Option Json :=
  match n.integer? with
  | some i => some (.integer i)
  | none =>
    if h : n.magnitude < Binary64.limit then some (.real ⟨n.negative, _, h⟩) else none

end Numeral

end Rulebook.Json
