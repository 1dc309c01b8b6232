/-!
# Powers

The powers of two and ten that doubles and decimals are made of.  They are written
with `Nat.pow`, so they mean the same whatever other notion of a power is in scope.
-/

namespace Rulebook

/-- A power of two. -/
def pow2 (k : Nat) : Nat := Nat.pow 2 k

/-- A power of ten. -/
def pow10 (k : Nat) : Nat := Nat.pow 10 k

end Rulebook
