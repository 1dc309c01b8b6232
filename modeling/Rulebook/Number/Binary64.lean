import Rulebook.Number.Power

/-!
# Finite doubles

A double is given by its sign and by the *rank* of its magnitude, the place of
the magnitude among the non-negative doubles counted from zero.  The rank is the
lower 63 bits of the IEEE 754 form read as a number, so the form of a double is
its rank, with bit 63 for the sign.  The rank after the largest finite magnitude
would be infinity, which no value of this type is.

Every magnitude is a multiple of the smallest one, `2 ^ -1074`.  `units` gives
the multiple, and it grows with the rank, so to compare two doubles is to compare
their signed ranks.  Zero has both signs and its signed rank is zero for either.

`rankOf` rounds a quotient of natural numbers to the nearest rank, a tie to the
even one.  Doubles are rounded from nothing else: a whole number, a decimal, a
product and a quotient are all given to `rankOf` as exact quotients.
-/

namespace Rulebook

/-- The number of ranks of finite magnitudes. -/
def Binary64.limit : Nat := 2047 * pow2 52

/-- A finite double. -/
structure Binary64 where
  /-- Whether the sign bit is set. -/
  negative : Bool
  /-- The rank of the magnitude. -/
  rank : Nat
  /-- The magnitude is finite. -/
  rank_lt : rank < Binary64.limit
  deriving DecidableEq

namespace Binary64

/-- Zero with the sign bit clear. -/
def zero : Binary64 := ⟨false, 0, by decide⟩

instance : Inhabited Binary64 := ⟨zero⟩

/-! ## Order -/

/-- The signed rank, which orders doubles by value. -/
def signedRank (x : Binary64) : Int := if x.negative then -x.rank else x.rank

/-- How two doubles compare by value. -/
def order (x y : Binary64) : Ordering := compare x.signedRank y.signedRank

/-- Whether two doubles have one value; zero is equal to zero of the other sign. -/
def same (x y : Binary64) : Bool := x.signedRank == y.signedRank

/-! ## Magnitude and rounding -/

/-- The magnitude of a rank as a multiple of `2 ^ -1074`. -/
def units (rank : Nat) : Nat :=
  if rank < pow2 52 then rank
  else (pow2 52 + rank % pow2 52) * pow2 (rank / pow2 52 - 1)

/-- A quotient rounded to the nearest natural number, a tie to the even one. -/
def roundQuotient (num den : Nat) : Nat :=
  let q := num / den
  let r := num % den
  if 2 * r < den then q else if den < 2 * r then q + 1 else q + q % 2

/-- The rank nearest to a quotient.  Of two nearest ranks it is the even one, and it is at least
`limit` if the quotient rounds beyond the finite doubles. -/
def rankOf (num den : Nat) : Nat :=
  let scaled := num * pow2 1074
  let shift := Nat.log2 (scaled / den) - 52
  shift * pow2 52 + roundQuotient scaled (den * pow2 shift)

/-- The double nearest to a quotient, unless that is infinite. -/
def ofQuotient? (negative : Bool) (num den : Nat) : Option Binary64 :=
  if h : rankOf num den < limit then some ⟨negative, _, h⟩ else none

/-- The finite double nearest to a quotient. -/
def ofQuotient (negative : Bool) (num den : Nat) : Binary64 :=
  ⟨negative, min (rankOf num den) (limit - 1), by have : 0 < limit := by decide
                                                  omega⟩

/-- The double nearest to a whole number. -/
def ofInt (i : Int) : Binary64 := ofQuotient (i < 0) i.natAbs 1

/-- The rank nearest to the product of two magnitudes. -/
def productRank (r s : Nat) : Nat := rankOf (units r * units s) (pow2 2148)

/-- The rank nearest to the quotient of two magnitudes. -/
def quotientRank (r s : Nat) : Nat := rankOf (units r) (units s)

/-! ## Other forms -/

/-- The IEEE 754 form read as a number. -/
def bits (x : Binary64) : Nat := (if x.negative then pow2 63 else 0) + x.rank

/-- The magnitude is a whole number. -/
def isWhole (x : Binary64) : Bool := units x.rank % pow2 1074 == 0

/-- The magnitude without its fraction. -/
def truncated (x : Binary64) : Nat := units x.rank / pow2 1074

example : (ofInt 1).bits = 0x3ff0000000000000 := by decide +kernel
example : (ofInt (-3)).bits = 0xc008000000000000 := by decide +kernel
example : ofQuotient? false (pow10 309) 1 = none := by decide +kernel
example : rankOf (pow2 53 + 1) 1 = rankOf (pow2 53) 1 := by decide +kernel
example : units (rankOf 1 (pow2 1074)) = 1 ∧ rankOf 1 (pow2 1075) = 0 := by decide +kernel
example : same zero ⟨true, 0, by decide⟩ = true := by decide

end Binary64

end Rulebook
