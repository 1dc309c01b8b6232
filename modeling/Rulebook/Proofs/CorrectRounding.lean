import Mathlib.Tactic.NormNum
import Rulebook.Proofs.NumberOrder
import Rulebook.Proofs.WrittenNumbers

/-!
# Correct rounding of decimals

A number is rounded correctly to a double if the double is nearest to it, has its sign, and the
number is not too great.  `Binary64.overflow` is where the numbers that are too great begin: half
way from the greatest double to the next power of two, which would be the next double if there were
one.  A quotient is rounded to a finite rank exactly if it is below (`rankOf_lt_limit_iff`).

No two doubles of one sign are nearest to a number (`Nearest.eq`).  They would both have a zero as
the last digit of the mantissa, so another double would stand between them, and it would be closer.

So correct rounding says what the double is, and decimals are rounded correctly, however great or
small their exponents are (`Decimal.toBinary64?_eq_some_iff_rounds`).
-/

namespace Rulebook

namespace Binary64

variable {q : ℚ} {x y : Binary64} {num den : Nat}

/-! ## Where the doubles end -/

/-- Half way from the greatest double to the next power of two. -/
def overflow : ℚ := 2 ^ 1024 - 2 ^ 970

theorem units_limit : units limit = 18014398509481984 * pow2 2044 := by decide +kernel

theorem units_greatest : units (limit - 1) = 18014398509481982 * pow2 2044 := by decide +kernel

/-- The number half way, as a whole number. -/
def overflowNat : Nat := 18014398509481983 * pow2 970

theorem overflowNat_mul : overflowNat * pow2 1074 = 18014398509481983 * pow2 2044 := by
  rw [overflowNat, Nat.mul_assoc, ← pow2_add]

theorem rankOf_overflowNat : rankOf overflowNat 1 = limit := by decide +kernel

theorem cast_pow2 (k : Nat) : (pow2 k : ℚ) = 2 ^ k := Nat.cast_pow 2 k

theorem overflow_eq : overflow = overflowNat := by
  have hpow : (2 : ℚ) ^ 1024 = 2 ^ 54 * 2 ^ 970 := pow_add 2 54 970
  have hmantissa : (2 : ℚ) ^ 54 - 1 = (18014398509481983 : Nat) := by norm_num
  rw [overflow, overflowNat, Nat.cast_mul, cast_pow2, hpow, ← sub_one_mul, hmantissa]

theorem cast_lt_overflow_iff {n : Nat} : (n : ℚ) < overflow ↔ n < overflowNat := by
  rw [overflow_eq, Nat.cast_lt]

/-- A quotient is rounded to a finite double exactly if it is not too great. -/
theorem rankOf_lt_iff (hden : 0 < den) : rankOf num den < limit ↔ num < overflowNat * den := by
  constructor
  · intro hlt
    by_contra hge
    have hle : rankOf overflowNat 1 ≤ rankOf num den :=
      rankOf_le_rankOf Nat.one_pos hden (by omega)
    rw [rankOf_overflowNat] at hle
    omega
  · intro hlt
    have hle : rankOf num den ≤ rankOf overflowNat 1 :=
      rankOf_le_rankOf hden Nat.one_pos (by omega)
    rw [rankOf_overflowNat] at hle
    refine Nat.lt_of_le_of_ne hle fun heq => ?_
    -- the greatest double is closer than the next power of two
    have hgap : gap num den (rankOf num den) ≤ gap num den (limit - 1) := gap_rankOf_le hden _
    have hscaled : num * pow2 1074 < 18014398509481983 * (pow2 2044 * den) := by
      have h := Nat.mul_lt_mul_of_pos_right hlt (pow2_pos 1074)
      rwa [Nat.mul_right_comm, overflowNat_mul, Nat.mul_assoc] at h
    rw [heq, gap, gap, units_limit, units_greatest, Nat.mul_assoc, Nat.mul_assoc] at hgap
    omega

theorem rankOf_lt_limit_iff (hden : 0 < den) :
    rankOf num den < limit ↔ (num / den : ℚ) < overflow := by
  rw [rankOf_lt_iff hden, overflow_eq, div_lt_iff₀ (Nat.cast_pos.mpr hden), ← Nat.cast_mul,
    Nat.cast_lt]

/-- A quotient that is less than half the smallest magnitude is rounded to zero. -/
theorem rankOf_eq_zero (h : 2 * (num * pow2 1074) < den) : rankOf num den = 0 := by
  have hdiv : num * pow2 1074 / den = 0 := Nat.div_eq_of_lt (by omega)
  have hshift : shiftOf num den = 0 := by rw [shiftOf, hdiv, Nat.log2_zero]
  have hone : den * pow2 0 = den := Nat.mul_one den
  rw [rankOf_eq, hshift, hone, Nat.zero_mul, Nat.zero_add, roundQuotient, hdiv,
    Nat.mod_eq_of_lt (by omega)]
  simp only [if_pos h]

/-! ## Only one double is nearest -/

/-- Between two numbers that are equally far from a third there is none that is as far. -/
theorem abs_sub_lt_of_between {a b c : ℚ} (hab : a < b) (hbc : b < c) (h : |q - a| = |q - c|) :
    |q - b| < |q - a| := by
  have hmiddle : q - a = c - q := by
    rcases abs_eq_abs.mp h with h | h
    · linarith
    · linarith
  rw [hmiddle, abs_of_pos (show 0 < c - q by linarith), abs_lt]
  constructor
  · linarith
  · linarith

theorem toRat_of_negative (hx : x.negative = true) : x.toRat = -magnitude x.rank := if_pos hx

theorem toRat_of_positive (hx : x.negative = false) : x.toRat = magnitude x.rank := by
  rw [toRat, hx]
  rfl

theorem Nearest.not_rank_lt (hx : Nearest q x) (hy : Nearest q y)
    (hsign : x.negative = y.negative) : ¬ x.rank < y.rank := by
  intro hlt
  have hdist : |q - x.toRat| = |q - y.toRat| := le_antisymm (hx.le y) (hy.le x)
  have hmagnitude := magnitude_strictMono hlt
  have hne : y.toRat ≠ x.toRat := by
    intro heq
    rw [toRat, toRat, hsign] at heq
    split at heq
    case isTrue => exact hmagnitude.ne' (neg_injective heq)
    case isFalse => exact hmagnitude.ne' heq
  have hxeven := hx.even y hne hdist
  have hyeven := hy.even x hne.symm hdist.symm
  -- two even ranks have an odd one between them
  have hfinite : x.rank + 1 < limit := by
    have := y.rank_lt
    omega
  have hbelow : magnitude x.rank < magnitude (x.rank + 1) := magnitude_strictMono (by omega)
  have habove : magnitude (x.rank + 1) < magnitude y.rank := magnitude_strictMono (by omega)
  have hcloser := hx.le ⟨x.negative, x.rank + 1, hfinite⟩
  refine absurd hcloser (not_le.mpr ?_)
  cases hneg : x.negative with
  | false =>
      rw [toRat_of_positive hneg, toRat_of_positive (hsign ▸ hneg)] at hdist
      rw [toRat_of_positive hneg, toRat_of_positive rfl]
      exact abs_sub_lt_of_between hbelow habove hdist
  | true =>
      rw [toRat_of_negative hneg, toRat_of_negative (hsign ▸ hneg)] at hdist
      rw [toRat_of_negative hneg, toRat_of_negative rfl, hdist]
      exact abs_sub_lt_of_between (neg_lt_neg habove) (neg_lt_neg hbelow) hdist.symm

/-- Two doubles of one sign that are nearest to a number are one. -/
theorem Nearest.eq (hx : Nearest q x) (hy : Nearest q y) (hsign : x.negative = y.negative) :
    x = y := by
  have hle := Nat.le_of_not_lt (hx.not_rank_lt hy hsign)
  have hge := Nat.le_of_not_lt (hy.not_rank_lt hx hsign.symm)
  obtain ⟨negative, rank, hfinite⟩ := x
  obtain ⟨negative', rank', hfinite'⟩ := y
  obtain rfl : negative = negative' := hsign
  obtain rfl : rank = rank' := Nat.le_antisymm hge hle
  rfl

/-- A double that a number is rounded to as it should be.  Zero has both signs, so the sign of the
number is said beside it. -/
structure Rounds (negative : Bool) (q : ℚ) (x : Binary64) : Prop where
  /-- The number is not beyond the doubles. -/
  finite : |q| < overflow
  /-- The double has the sign of the number. -/
  negative : x.negative = negative
  /-- No double is closer. -/
  nearest : Nearest q x

theorem Rounds.eq {negative : Bool} (hx : Rounds negative q x) (hy : Rounds negative q y) : x = y :=
  hx.nearest.eq hy.nearest (hx.negative.trans hy.negative.symm)

end Binary64

/-! ## Decimals -/

namespace Decimal

open Binary64 (limit overflow rankOf)

/-- The numerator of a decimal. -/
def numerator (d : Decimal) : Nat := d.coefficient * pow10 d.exponent.toNat

/-- The denominator of a decimal. -/
def denominator (d : Decimal) : Nat := pow10 (-d.exponent).toNat

theorem cast_pow10 (k : Nat) : (pow10 k : ℚ) = 10 ^ k := Nat.cast_pow 10 k

theorem denominator_pos (d : Decimal) : 0 < d.denominator := pow10_pos _

theorem toRat_eq_div (d : Decimal) : d.toRat = d.numerator / d.denominator := by
  have hten : (10 : ℚ) ≠ 0 := by norm_num
  have hexponent : d.exponent = (d.exponent.toNat : Int) - ((-d.exponent).toNat : Int) := by omega
  rw [toRat, numerator, denominator, Nat.cast_mul, cast_pow10, cast_pow10, mul_div_assoc]
  conv_lhs => rw [hexponent, zpow_sub₀ hten, zpow_natCast, zpow_natCast]

/-- A power of ten that is beyond the doubles. -/
theorem overflow_le_pow10 : overflow ≤ (pow10 309 : ℚ) := by
  have hnot : ¬ ((pow10 309 : Nat) : ℚ) / (1 : Nat) < overflow :=
    (Binary64.rankOf_lt_limit_iff Nat.one_pos).not.mp
      (Nat.not_lt.mpr Binary64.limit_le_rankOf_pow10)
  rwa [not_lt, Nat.cast_one, div_one] at hnot

/-- A decimal with a great exponent is beyond the doubles, unless it is zero. -/
theorem overflow_le_toRat {d : Decimal} (hc : d.coefficient ≠ 0) (h : 310 < d.exponent) :
    overflow ≤ d.toRat := by
  have hdenominator : d.denominator = 1 := by
    rw [denominator, Int.toNat_eq_zero.mpr (by omega)]
    rfl
  have hle : pow10 309 ≤ d.numerator :=
    Nat.le_trans (pow10_mono (by omega)) (Nat.le_mul_of_pos_left _ (Nat.pos_of_ne_zero hc))
  rw [toRat_eq_div, hdenominator, Nat.cast_one, div_one]
  exact overflow_le_pow10.trans (Nat.cast_le.mpr hle)

/-- A decimal with a small exponent is rounded to zero. -/
theorem rankOf_eq_zero_of_small {c k : Nat} (hc : c ≠ 0) (h : Nat.log2 c + 1080 < 3 * k) :
    rankOf c (pow10 k) = 0 := by
  refine Binary64.rankOf_eq_zero ?_
  have hlt : c < pow2 (Nat.log2 c + 1) := (lt_pow2_iff_log2_lt hc).mpr (Nat.lt_succ_self _)
  calc 2 * (c * pow2 1074) < 2 * (pow2 (Nat.log2 c + 1) * pow2 1074) :=
        Nat.mul_lt_mul_of_pos_left (Nat.mul_lt_mul_of_pos_right hlt (pow2_pos _)) (by decide)
    _ = pow2 (Nat.log2 c + 1 + 1074 + 1) := by
        rw [pow2_succ (Nat.log2 c + 1 + 1074), pow2_add (Nat.log2 c + 1) 1074]
    _ ≤ pow2 (3 * k) := Nat.pow_le_pow_right (by decide) (by omega)
    _ ≤ pow10 k := pow2_mul_three_le k

/-- The rank of a decimal is that of the quotient, unless both are beyond the doubles. -/
theorem rank_cases (d : Decimal) :
    d.rank = rankOf d.numerator d.denominator ∨ limit ≤ d.rank ∧ overflow ≤ d.toRat := by
  by_cases hc : d.coefficient = 0
  · left
    rw [rank, if_pos hc, numerator, hc, Nat.zero_mul, Binary64.rankOf_zero d.denominator_pos]
  rcases lt_or_ge d.exponent 0 with he | he
  · left
    have hnatAbs : (-d.exponent).toNat = d.exponent.natAbs := by omega
    have hone : pow10 d.exponent.toNat = 1 := by rw [Int.toNat_eq_zero.mpr (by omega)]; rfl
    rw [rank, if_neg hc, if_neg (by omega), numerator, denominator, hone, Nat.mul_one, hnatAbs]
    split
    case isTrue hsmall => exact (rankOf_eq_zero_of_small hc hsmall).symm
    case isFalse => rfl
  · rcases lt_or_ge 310 d.exponent with hbig | hbig
    · right
      rw [rank, if_neg hc, if_pos he, if_pos hbig]
      exact ⟨Nat.le_refl _, overflow_le_toRat hc hbig⟩
    · left
      have hone : d.denominator = 1 := by
        rw [denominator, Int.toNat_eq_zero.mpr (by omega)]
        rfl
      rw [rank, if_neg hc, if_pos he, if_neg (by omega), hone, numerator]

theorem rank_lt_limit_iff (d : Decimal) : d.rank < limit ↔ d.toRat < overflow := by
  rcases d.rank_cases with heq | ⟨hrank, hnumber⟩
  · rw [heq, Binary64.rankOf_lt_limit_iff d.denominator_pos, toRat_eq_div]
  · exact iff_of_false (Nat.not_lt.mpr hrank) (not_lt.mpr hnumber)

theorem toRat_nonneg (d : Decimal) : 0 ≤ d.toRat :=
  mul_nonneg (Nat.cast_nonneg _) (zpow_nonneg (by norm_num) _)

/-- A decimal with its sign. -/
def signed (negative : Bool) (d : Decimal) : ℚ := if negative then -d.toRat else d.toRat

theorem abs_signed (negative : Bool) (d : Decimal) : |signed negative d| = d.toRat := by
  rw [signed]
  split
  case isTrue => rw [abs_neg, abs_of_nonneg d.toRat_nonneg]
  case isFalse => exact abs_of_nonneg d.toRat_nonneg

/-- A decimal that is not too great is rounded as it should be. -/
theorem rounds_rank (negative : Bool) {d : Decimal} (h : d.rank < limit) :
    Binary64.Rounds negative (signed negative d) ⟨negative, d.rank, h⟩ where
  finite := by
    rw [abs_signed]
    exact d.rank_lt_limit_iff.mp h
  negative := rfl
  nearest := by
    have hrank : d.rank = rankOf d.numerator d.denominator := by
      rcases d.rank_cases with heq | ⟨hge, -⟩
      · exact heq
      · omega
    refine Binary64.nearest_of_rank d.denominator_pos hrank ?_
    rw [signed, toRat_eq_div]

/-- The double of a decimal is the one that the decimal is rounded to as it should be. -/
theorem toBinary64?_eq_some_iff_rounds {negative : Bool} {d : Decimal} {x : Binary64} :
    d.toBinary64? negative = some x ↔ Binary64.Rounds negative (signed negative d) x := by
  constructor
  · intro h
    rw [toBinary64?] at h
    split at h
    case isTrue hlt =>
      cases h
      exact rounds_rank negative hlt
    case isFalse => cases h
  · intro h
    have hlt : d.rank < limit := d.rank_lt_limit_iff.mpr (abs_signed negative d ▸ h.finite)
    rw [toBinary64?, dif_pos hlt]
    exact congrArg some ((rounds_rank negative hlt).eq h)

end Decimal

end Rulebook
