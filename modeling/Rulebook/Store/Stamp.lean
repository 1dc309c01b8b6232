import Rulebook.Number.Digits
import Rulebook.Text.Blank

/-!
# Stamps

A stamp tells one evaluation from another: an identifier of 128 bits and the time
of the evaluation.  Both are kept as they are written, the identifier in groups of
hexadecimal digits and the time as a calendar date, a time of day and how far it is
from universal time.  Blanks may stand around the parts of a time.

Nothing in this library makes a stamp up.  Who asks for an evaluation supplies
one, and `Stamp.ofTexts?` takes only texts that have the right form.
-/

namespace Rulebook

namespace Stamp

open Rulebook.Text (isBlank isDigit skipBlanks)

/-! ## Identifiers -/

/-- Whether a character is a hexadecimal digit. -/
def isHexDigit (c : Char) : Bool :=
  isDigit c || ('a' ≤ c && c ≤ 'f') || ('A' ≤ c && c ≤ 'F')

/-- Whether a text is groups of hexadecimal digits of given sizes with dashes between them. -/
def inGroups : List Nat → List Char → Bool
  | [], cs => cs.isEmpty
  | [n], cs => cs.length == n && cs.all isHexDigit
  | n :: ns, cs =>
    (cs.take n).length == n && (cs.take n).all isHexDigit && (cs.drop n).head? == some '-' &&
      inGroups ns (cs.drop (n + 1))

/-- Whether a text is an identifier with its dashes. -/
def isDashed (cs : List Char) : Bool := inGroups [8, 4, 4, 4, 12] cs

/-- What an identifier with dashes may stand after, in either case of the letters. -/
def scheme : List Char := "urn:uuid:".toList

/-- Whether a text is an identifier: with dashes or without, in braces or after its scheme. -/
def isIdentifier (cs : List Char) : Bool :=
  isDashed cs || inGroups [32] cs ||
    ((cs.take scheme.length).map Char.toLower == scheme && isDashed (cs.drop scheme.length)) ||
    (cs.head? == some '\x7b' && cs.getLast? == some '\x7d' && isDashed (cs.drop 1).dropLast)

/-! ## Dates -/

/-- The number of days of a month. -/
def daysIn (year : Int) (month : Nat) : Nat :=
  if month = 2 then
    if year % 4 = 0 ∧ (year % 100 ≠ 0 ∨ year % 400 = 0) then 29 else 28
  else if month = 4 ∨ month = 6 ∨ month = 9 ∨ month = 11 then 30
  else 31

/-- The first year that is counted. -/
def firstYear : Int := -262143

/-- The last year that is counted. -/
def lastYear : Int := 262142

/-- A date and a time of day, which is so many minutes ahead of universal time. -/
structure Moment where
  /-- The year. -/
  year : Int
  /-- The month, from 1. -/
  month : Nat
  /-- The day of the month, from 1. -/
  day : Nat
  /-- The hour. -/
  hour : Nat
  /-- The minute. -/
  minute : Nat
  /-- The second. -/
  second : Nat
  /-- The minutes ahead of universal time. -/
  ahead : Int

namespace Moment

/-- The minutes of the day that have passed in universal time, where those before the day are less
than zero. -/
def minutes (m : Moment) : Int := 60 * m.hour + m.minute - m.ahead

/-- Whether a calendar has the date and a clock the time.  A minute may have a leap second.  The
time must be in the years that are counted, also as universal time. -/
def isValid (m : Moment) : Bool :=
  firstYear ≤ m.year && m.year ≤ lastYear && 1 ≤ m.month && m.month ≤ 12 && 1 ≤ m.day &&
    m.day ≤ daysIn m.year m.month && m.hour < 24 && m.minute < 60 && m.second ≤ 60 &&
    m.ahead.natAbs < 1440 &&
    !(m.year = firstYear && m.month = 1 && m.day = 1 && m.minutes < 0) &&
    !(m.year = lastYear && m.month = 12 && m.day = 31 && 1440 ≤ m.minutes)

end Moment

/-! ## Times -/

/-- The number that a text begins with, of at most so many digits, and what follows it. -/
def number? (most : Nat) (cs : List Char) : Option (Nat × List Char) :=
  let ds := (cs.take most).takeWhile isDigit
  if ds.isEmpty then none else some (Digits.value ds, cs.drop ds.length)

/-- A year after blanks, and what follows it.  With a sign it may have more than four digits. -/
def year? (cs : List Char) : Option (Int × List Char) :=
  match skipBlanks cs with
  | '+' :: cs => (number? cs.length cs).map fun (n, cs) => (n, cs)
  | '-' :: cs => (number? cs.length cs).map fun (n, cs) => (-n, cs)
  | cs => (number? 4 cs).map fun (n, cs) => (n, cs)

/-- A number of at most two digits after blanks, and what follows it. -/
def two? (cs : List Char) : Option (Nat × List Char) := number? 2 (skipBlanks cs)

/-- What follows a character that comes after blanks. -/
def after? (c : Char) (cs : List Char) : Option (List Char) :=
  match skipBlanks cs with
  | d :: cs => if d = c then some cs else none
  | [] => none

/-- What follows the character between a date and a time. -/
def afterDate? : List Char → Option (List Char)
  | c :: cs => if c = 'T' ∨ c = 't' ∨ c = ' ' then some cs else none
  | [] => none

/-- What follows the fraction of a second, if there is one. -/
def afterFraction? : List Char → Option (List Char)
  | '.' :: cs => (number? cs.length cs).map (·.2)
  | cs => some cs

/-- The number of two digits that a text begins with, and what follows it. -/
def twoDigits? : List Char → Option (Nat × List Char)
  | a :: b :: cs => if isDigit a && isDigit b then some (Digits.value [a, b], cs) else none
  | _ => none

/-- The minutes of hours and minutes, and what follows them.  Colons and blanks may be between. -/
def span? (cs : List Char) : Option (Int × List Char) := do
  let (hours, cs) ← twoDigits? cs
  let (minutes, cs) ← twoDigits? (cs.dropWhile fun c => c == ':' || isBlank c)
  if minutes < 60 then pure (60 * hours + minutes, cs) else none

/-- The minutes that a time is ahead of universal time, and what follows them. -/
def ahead? : List Char → Option (Int × List Char)
  | [] => none
  | c :: cs =>
    if c = 'Z' ∨ c = 'z' then some (0, cs)
    else if c = '+' then span? cs
    else if c = '-' ∨ c = '\u2212' then (span? cs).map fun (n, cs) => (-n, cs)
    else if ((c :: cs).take 3).map Char.toUpper = ['U', 'T', 'C'] then some (0, cs.drop 2)
    else none

/-- The time that a text stands for. -/
def moment? (cs : List Char) : Option Moment := do
  let (year, cs) ← year? cs
  let (month, cs) ← two? (← after? '-' cs)
  let (day, cs) ← two? (← after? '-' cs)
  let (hour, cs) ← two? (← afterDate? cs)
  let (minute, cs) ← two? (← after? ':' cs)
  let (second, cs) ← two? (← after? ':' cs)
  let (ahead, cs) ← ahead? (skipBlanks (← afterFraction? cs))
  if (skipBlanks cs).isEmpty then pure ⟨year, month, day, hour, minute, second, ahead⟩ else none

/-- Whether a text is a time. -/
def isTime (cs : List Char) : Bool := (moment? cs).any Moment.isValid

end Stamp

/-! ## Stamps -/

/-- What tells an evaluation from others. -/
structure Stamp where
  /-- The identifier. -/
  id : String
  /-- The time. -/
  time : String
  /-- Both have their form. -/
  wellFormed : (Stamp.isIdentifier id.toList && Stamp.isTime time.toList) = true

namespace Stamp

/-- The stamp of two texts, if they have the right form. -/
def ofTexts? (id time : String) : Option Stamp :=
  if h : (isIdentifier id.toList && isTime time.toList) = true then some ⟨id, time, h⟩ else none

theorem ofTexts?_self (s : Stamp) : ofTexts? s.id s.time = some s := by
  simp [ofTexts?, s.wellFormed]

/-- The stamp whose identifier is zero, at the beginning of the year 1970. -/
def zero : Stamp :=
  ⟨"00000000-0000-0000-0000-000000000000", "1970-01-01T00:00:00Z", by decide +kernel⟩

example :
    (ofTexts? "67e55044-10b1-426f-9247-bb680e5fe0c8" "2024-02-29T12:00:01.5+01:00").isSome := by
  decide +kernel
example : (ofTexts? zero.id "2023-02-29T12:00:00Z").isNone := by decide +kernel
example : (ofTexts? zero.id " +2024 -2- 29  12:00 :1 utc ").isSome := by decide +kernel
example : (ofTexts? zero.id "-262143-01-01T00:00:00+00:01").isNone := by decide +kernel

end Stamp

end Rulebook
