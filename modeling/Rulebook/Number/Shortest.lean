import Rulebook.Number.Decimal

/-!
# The shortest decimal of a double

The shortest decimal of a magnitude is the one with the fewest digits that is
read back as the magnitude, and the nearest of these.  A decimal with few digits
is a point of a coarse grid, the multiples of a power of ten.  `shortest` goes
from a grid that is too coarse to finer ones and stops at the first where one of
the two neighbours of the magnitude is read back.  Where both are, the nearer is
taken, and `Tie` says which one is taken when the magnitude lies half way.

Seventeen digits are enough for every double.  The search needs no proof of that:
it ends with the exact decimal, which every magnitude has.

The written forms differ in where they give up positional notation and in how
they write a whole number.
-/

namespace Rulebook

namespace Binary64

/-- The neighbour that is taken for a magnitude half way between two decimals. -/
inductive Tie where
  /-- The greater one. -/
  | up
  /-- The one with an even last digit. -/
  | even

/-- The neighbours of a magnitude on the grid of the multiples of `10 ^ e`: the multiple at or below
it, and how twice the remainder compares with one step. -/
def below (rank : Nat) (e : Int) : Nat × Ordering :=
  let (num, den) :=
    if 0 ≤ e then (units rank, pow2 1074 * pow10 e.toNat)
    else (units rank * pow10 e.natAbs, pow2 1074)
  (num / den, compare (2 * (num % den)) den)

/-- The neighbour of a magnitude on a grid that is read back as the magnitude, if there is one. -/
def onGrid? (tie : Tie) (rank : Nat) (e : Int) : Option Decimal :=
  let (low, half) := below rank e
  let reads (n : Nat) : Bool := (Decimal.mk n e).rank == rank
  match reads low, reads (low + 1) with
  | false, false => none
  | true, false => some ⟨low, e⟩
  | false, true => some ⟨low + 1, e⟩
  | true, true =>
    match half, tie with
    | .lt, _ => some ⟨low, e⟩
    | .gt, _ => some ⟨low + 1, e⟩
    | .eq, .up => some ⟨low + 1, e⟩
    | .eq, .even => some ⟨low + low % 2, e⟩

/-- The magnitude written out in full. -/
def exact (rank : Nat) : Decimal := ⟨units rank * Nat.pow 5 1074, -1074⟩

/-- The first hit on the grids from `10 ^ e` down to finer ones, `n` of them, and the exact decimal
where none hits. -/
def search (tie : Tie) (rank : Nat) : Nat → Int → Decimal
  | 0, _ => exact rank
  | n + 1, e => (onGrid? tie rank e).getD (search tie rank n (e - 1))

/-- The exponent of a power of ten that is greater than the magnitude and not much greater. -/
def coarse (rank : Nat) : Int :=
  ((Nat.log2 (units rank) : Int) - 1073) * 30103 / 100000 + 1

/-- The shortest decimal that is read back as a magnitude. -/
def shortest (tie : Tie) (rank : Nat) : Decimal :=
  if rank = 0 then ⟨0, 0⟩ else search tie rank 20 (coarse rank)

/-! ## Written forms -/

/-- A sign before a written magnitude. -/
def withSign (x : Binary64) (cs : List Char) : List Char :=
  if x.negative then '-' :: cs else cs

/-- The shortest digits without an exponent, and without a fraction if the double is whole. -/
def plain (x : Binary64) : List Char :=
  withSign x (shortest .up x.rank).positional

/-- A whole double in full, with a zero after the point. -/
def withOneDecimal (x : Binary64) : List Char :=
  withSign x (Digits.digits x.truncated ++ ['.', '0'])

/-- A decimal with one digit before the point and an exponent that has its sign. -/
def scientific (d : Decimal) : List Char :=
  let ds := Digits.digits d.coefficient
  let fraction := ds.drop 1
  let e : Int := d.exponent + fraction.length
  ds.take 1 ++ (if fraction.isEmpty then [] else '.' :: fraction) ++
    'e' :: (if 0 ≤ e then '+' :: Digits.digits e.natAbs else '-' :: Digits.digits e.natAbs)

/-- The shortest digits in the form of data files: always with a fraction or an exponent, and
positional from `1e-5` up to, but not including, `1e16`. -/
def data (x : Binary64) : List Char :=
  let d := shortest .even x.rank
  let point : Int := d.exponent + (Digits.digits d.coefficient).length
  withSign x <|
    if x.rank = 0 then ['0', '.', '0']
    else if -5 < point ∧ point ≤ 16 then
      if 0 ≤ d.exponent then d.positional ++ ['.', '0'] else d.positional
    else scientific d

example : plain (ofInt 20) = ['2', '0'] := by decide +kernel
example : plain (ofQuotient false 1 10) = ['0', '.', '1'] := by decide +kernel
example : withOneDecimal (ofInt (-3)) = ['-', '3', '.', '0'] := by decide +kernel
example : data (ofInt 100) = ['1', '0', '0', '.', '0'] := by decide +kernel
example : data (ofQuotient false 15 100000000) = ['1', '.', '5', 'e', '-', '7'] := by decide +kernel

end Binary64

end Rulebook
