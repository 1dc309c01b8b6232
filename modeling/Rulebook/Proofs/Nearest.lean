import Mathlib.Algebra.Order.Field.Rat
import Mathlib.Tactic.Linarith
import Mathlib.Tactic.Positivity
import Rulebook.Proofs.Shortest

/-!
# The nearest double

A double is a rational number, `Binary64.toRat`.  Rounding gives the nearest one: no double is
closer to the quotient that was rounded, and if another is as close, the last digit of the
mantissa is zero (`nearest_of_rank`).

The magnitudes that have the shift of a quotient are the multiples of a power of two, and
`roundQuotient` finds the nearest multiple.  Smaller magnitudes need not be multiples.  None of
them is beyond the least magnitude that has the shift, and the quotient is at least that one, so
they are no closer (`multiple_or_le`).

Distances are compared on natural numbers first, where the common denominator is multiplied out.
-/

namespace Rulebook.Binary64

variable {num den r s : Nat}

/-! ## The nearest multiple -/

/-- A quotient is rounded down up to the half, and up from the half on. -/
theorem roundQuotient_cases (num den : Nat) :
    roundQuotient num den = num / den ∧ 2 * (num % den) ≤ den ∨
      roundQuotient num den = num / den + 1 ∧ den ≤ 2 * (num % den) := by
  simp only [roundQuotient]
  split
  · left
    omega
  · split
    · right
      omega
    · rcases Nat.mod_two_eq_zero_or_one (num / den) with h | h
      · left
        omega
      · right
        omega

/-- Two multiples that are not the same are at least one step apart. -/
theorem add_le_or_add_le {k q : Nat} (h : k ≠ q) (den : Nat) :
    k * den + den ≤ q * den ∨ q * den + den ≤ k * den := by
  rcases Nat.lt_or_gt_of_ne h with h | h
  · left
    rw [← Nat.succ_mul]
    exact Nat.mul_le_mul_right den h
  · right
    rw [← Nat.succ_mul]
    exact Nat.mul_le_mul_right den h

/-- No multiple of the denominator is closer to the numerator. -/
theorem natAbs_sub_roundQuotient_le (hden : 0 < den) (k : Nat) :
    ((num : Int) - (roundQuotient num den * den : Nat)).natAbs ≤
      ((num : Int) - (k * den : Nat)).natAbs := by
  rcases eq_or_ne k (roundQuotient num den) with rfl | hk
  · exact Nat.le_refl _
  · have hdiv := Nat.div_add_mod' num den
    have hmod := Nat.mod_lt num hden
    have hapart := add_le_or_add_le hk den
    rcases roundQuotient_cases num den with ⟨hround, hhalf⟩ | ⟨hround, hhalf⟩
    · rw [hround] at hapart ⊢
      omega
    · rw [hround, Nat.succ_mul] at hapart ⊢
      omega

/-- If another multiple is as close, the quotient is rounded to an even number. -/
theorem even_roundQuotient (hden : 0 < den) {k : Nat} (hk : k ≠ roundQuotient num den)
    (htie : ((num : Int) - (roundQuotient num den * den : Nat)).natAbs =
      ((num : Int) - (k * den : Nat)).natAbs) : roundQuotient num den % 2 = 0 := by
  have hdiv := Nat.div_add_mod' num den
  have hmod := Nat.mod_lt num hden
  have hapart := add_le_or_add_le hk den
  -- only the half way between two multiples is as far from both
  have hhalf : 2 * (num % den) = den := by
    rcases roundQuotient_cases num den with ⟨hround, hle⟩ | ⟨hround, hle⟩
    · rw [hround] at hapart htie
      omega
    · rw [hround, Nat.succ_mul] at hapart htie
      omega
  simp only [roundQuotient]
  rw [if_neg (by omega), if_neg (by omega)]
  omega

/-! ## The nearest magnitude -/

/-- The magnitude that a quotient is rounded to. -/
theorem units_rankOf (num den : Nat) :
    units (rankOf num den) =
      roundQuotient (num * pow2 1074) (den * pow2 (shiftOf num den)) * pow2 (shiftOf num den) := by
  rw [rankOf_eq]
  have hle := mantissa_le num den
  rcases Nat.lt_or_ge (roundQuotient (num * pow2 1074) (den * pow2 (shiftOf num den))) (pow2 52)
    with hlt | hge
  · -- a short mantissa has no zeros behind it
    have hshift : shiftOf num den = 0 :=
      Nat.eq_zero_of_not_pos fun hpos => Nat.not_le.mpr hlt (le_mantissa hpos)
    rw [hshift] at hlt ⊢
    rw [Nat.zero_mul, Nat.zero_add, units_of_lt hlt]
    exact (Nat.mul_one _).symm
  · exact units_mantissa _ hge hle

/-- A magnitude is a multiple of a power of two, or it is at most the least magnitude of the
shift. -/
theorem multiple_or_le (s r : Nat) :
    (∃ k, units r = k * pow2 s) ∨ 0 < s ∧ units r ≤ pow2 52 * pow2 s := by
  rcases Nat.eq_zero_or_pos s with rfl | hs
  · exact .inl ⟨units r, (Nat.mul_one _).symm⟩
  rcases Nat.lt_or_ge r (s * pow2 52 + pow2 52) with hlt | hge
  · right
    refine ⟨hs, ?_⟩
    rw [← units_mantissa s (Nat.le_refl _) (by omega)]
    exact units_mono (Nat.le_of_lt hlt)
  · left
    have hdiv : s + 1 ≤ r / pow2 52 := by
      rw [Nat.le_div_iff_mul_le (pow2_pos 52), Nat.succ_mul]
      exact hge
    rw [units_of_le (Nat.le_trans (Nat.le_add_left _ _) hge),
      show r / pow2 52 - 1 = r / pow2 52 - 1 - s + s by omega, pow2_add, ← Nat.mul_assoc]
    exact ⟨_, rfl⟩

/-- A quotient with a shift is not smaller than the least magnitude of the shift. -/
theorem le_of_shiftOf_pos (h : 0 < shiftOf num den) :
    pow2 52 * (den * pow2 (shiftOf num den)) ≤ num * pow2 1074 := by
  have h0 : num * pow2 1074 / den ≠ 0 := by
    intro h0
    rw [shiftOf, h0, Nat.log2_zero] at h
    omega
  have hle : pow2 (52 + shiftOf num den) ≤ num * pow2 1074 / den := by
    rw [pow2_le_iff_le_log2 h0]
    rw [shiftOf] at h ⊢
    omega
  rw [pow2_add] at hle
  calc pow2 52 * (den * pow2 (shiftOf num den))
      = pow2 52 * pow2 (shiftOf num den) * den := by
        rw [Nat.mul_comm den, Nat.mul_assoc]
    _ ≤ num * pow2 1074 / den * den := Nat.mul_le_mul_right den hle
    _ ≤ num * pow2 1074 := Nat.div_mul_le_self _ _

/-- How far a quotient is from a magnitude, with the denominators multiplied out. -/
def gap (num den r : Nat) : Nat := ((num * pow2 1074 : Nat) - (units r * den : Nat) : Int).natAbs

/-- No multiple of the power of two is closer than the magnitude that is rounded to. -/
theorem gap_rankOf_le_of_eq (hden : 0 < den) {k : Nat}
    (hk : units r = k * pow2 (shiftOf num den)) : gap num den (rankOf num den) ≤ gap num den r := by
  have hpos : 0 < den * pow2 (shiftOf num den) := Nat.mul_pos hden (pow2_pos _)
  rw [gap, gap, units_rankOf, hk, Nat.mul_assoc, Nat.mul_assoc, Nat.mul_comm (pow2 _) den]
  exact natAbs_sub_roundQuotient_le hpos k

/-- If another multiple is as close, the rank is even. -/
theorem even_rankOf_of_eq (hden : 0 < den) {k : Nat}
    (hk : units r = k * pow2 (shiftOf num den)) (hne : units r ≠ units (rankOf num den))
    (htie : gap num den (rankOf num den) = gap num den r) : rankOf num den % 2 = 0 := by
  have hpos : 0 < den * pow2 (shiftOf num den) := Nat.mul_pos hden (pow2_pos _)
  rw [units_rankOf, hk] at hne
  rw [gap, gap, units_rankOf, hk, Nat.mul_assoc, Nat.mul_assoc, Nat.mul_comm (pow2 _) den] at htie
  have heven := even_roundQuotient hpos (fun h => hne (by rw [h])) htie
  have h52 : pow2 52 % 2 = 0 := rfl
  rw [rankOf_eq, Nat.add_mod, Nat.mul_mod, h52, heven, Nat.mul_zero]

/-- A magnitude below the shift is no closer than the least magnitude of the shift. -/
theorem gap_least_le (hs : 0 < shiftOf num den)
    (hle : units r ≤ pow2 52 * pow2 (shiftOf num den)) :
    gap num den (shiftOf num den * pow2 52 + pow2 52) ≤ gap num den r := by
  have hquotient := le_of_shiftOf_pos hs
  have hbelow := Nat.mul_le_mul_right den hle
  rw [Nat.mul_assoc, Nat.mul_comm (pow2 _) den] at hbelow
  rw [gap, gap, units_mantissa _ (Nat.le_refl _) (by omega), Nat.mul_assoc,
    Nat.mul_comm (pow2 _) den]
  omega

/-- No magnitude is closer to a quotient than the one that is rounded to. -/
theorem gap_rankOf_le (hden : 0 < den) (r : Nat) :
    gap num den (rankOf num den) ≤ gap num den r := by
  rcases multiple_or_le (shiftOf num den) r with ⟨k, hk⟩ | ⟨hs, hle⟩
  · exact gap_rankOf_le_of_eq hden hk
  · exact Nat.le_trans (gap_rankOf_le_of_eq hden (units_mantissa _ (Nat.le_refl _) (by omega)))
      (gap_least_le hs hle)

/-- If another magnitude is as close, the rank is even. -/
theorem even_rankOf (hden : 0 < den) (hne : units r ≠ units (rankOf num den))
    (htie : gap num den (rankOf num den) = gap num den r) : rankOf num den % 2 = 0 := by
  rcases multiple_or_le (shiftOf num den) r with ⟨k, hk⟩ | ⟨hs, hle⟩
  · exact even_rankOf_of_eq hden hk hne htie
  · -- a magnitude below the shift that is as close is the least one of the shift
    have hleast := units_mantissa (shiftOf num den) (Nat.le_refl (pow2 52)) (by omega)
    have hfar : gap num den (rankOf num den) ≤ gap num den (shiftOf num den * pow2 52 + pow2 52) :=
      gap_rankOf_le_of_eq hden hleast
    have hnear := gap_least_le hs hle
    have heq : gap num den (shiftOf num den * pow2 52 + pow2 52) = gap num den r := by omega
    have hquotient := le_of_shiftOf_pos hs
    have hbelow := Nat.mul_le_mul_right den hle
    have hunits : units r * den = pow2 52 * pow2 (shiftOf num den) * den := by
      rw [gap, gap, hleast] at heq
      rw [Nat.mul_comm den, ← Nat.mul_assoc] at hquotient
      omega
    exact even_rankOf_of_eq hden (Nat.eq_of_mul_eq_mul_right hden hunits) hne htie

/-! ## Doubles as rational numbers -/

/-- The magnitude of a rank. -/
def magnitude (r : Nat) : ℚ := units r / pow2 1074

/-- The number that a double is. -/
def toRat (x : Binary64) : ℚ := if x.negative then -magnitude x.rank else magnitude x.rank

theorem magnitude_nonneg (r : Nat) : 0 ≤ magnitude r := by
  rw [magnitude]
  positivity

theorem abs_toRat (x : Binary64) : |x.toRat| = magnitude x.rank := by
  rw [toRat]
  split
  next => rw [abs_neg, abs_of_nonneg (magnitude_nonneg _)]
  next => rw [abs_of_nonneg (magnitude_nonneg _)]

theorem pow2_ne_zero (k : Nat) : (pow2 k : ℚ) ≠ 0 :=
  Nat.cast_ne_zero.mpr (Nat.ne_of_gt (pow2_pos k))

/-- The distance of a quotient from a magnitude. -/
theorem abs_sub_magnitude (hden : 0 < den) (num r : Nat) :
    |(num / den : ℚ) - magnitude r| = gap num den r / (den * pow2 1074) := by
  have hd : (den : ℚ) ≠ 0 := Nat.cast_ne_zero.mpr (Nat.ne_of_gt hden)
  have hp := pow2_ne_zero 1074
  have hpos : (0 : ℚ) < den * pow2 1074 :=
    mul_pos (Nat.cast_pos.mpr hden) (Nat.cast_pos.mpr (pow2_pos 1074))
  have heq : (num / den : ℚ) - magnitude r =
      ((num * pow2 1074 : Nat) - (units r * den : Nat) : Int) / (den * pow2 1074) := by
    rw [magnitude, div_sub_div _ _ hd hp]
    push_cast
    rw [mul_comm (den : ℚ) (units r)]
  rw [heq, abs_div, abs_of_pos hpos, gap, Nat.cast_natAbs, Int.cast_abs]

theorem magnitude_zero : magnitude 0 = 0 := by
  rw [magnitude, units_zero, Nat.cast_zero, zero_div]

theorem toRat_zero : zero.toRat = 0 := magnitude_zero

theorem magnitude_inj {r s : Nat} : magnitude r = magnitude s ↔ units r = units s := by
  rw [magnitude, magnitude, div_left_inj' (pow2_ne_zero 1074), Nat.cast_inj]

/-- A double is nearest to a number. -/
structure Nearest (q : ℚ) (x : Binary64) : Prop where
  /-- No double is closer. -/
  le : ∀ y : Binary64, |q - x.toRat| ≤ |q - y.toRat|
  /-- If another one is as close, the last binary digit of the mantissa is zero. -/
  even : ∀ y : Binary64, y.toRat ≠ x.toRat → |q - x.toRat| = |q - y.toRat| → x.rank % 2 = 0

/-- The double of a quotient with a sign is nearest to it. -/
theorem nearest_of_rank {q : ℚ} {x : Binary64} (hden : 0 < den) (hx : x.rank = rankOf num den)
    (hq : q = if x.negative then -(num / den : ℚ) else num / den) : Nearest q x := by
  have hpos : (0 : ℚ) < den * pow2 1074 :=
    mul_pos (Nat.cast_pos.mpr hden) (Nat.cast_pos.mpr (pow2_pos 1074))
  have habs : |q| = (num / den : ℚ) := by
    have : (0 : ℚ) ≤ num / den := by positivity
    rw [hq]
    split
    next => rw [abs_neg, abs_of_nonneg this]
    next => rw [abs_of_nonneg this]
  have hself : |q - x.toRat| = gap num den x.rank / (den * pow2 1074) := by
    rw [← abs_sub_magnitude hden, hq, toRat]
    split
    next => rw [neg_sub_neg, abs_sub_comm]
    next => rfl
  have hother (y : Binary64) : (gap num den y.rank / (den * pow2 1074) : ℚ) ≤ |q - y.toRat| := by
    rw [← abs_sub_magnitude hden, ← habs, ← abs_toRat]
    exact abs_abs_sub_abs_le_abs_sub q y.toRat
  have hgap (y : Binary64) :
      (gap num den x.rank / (den * pow2 1074) : ℚ) ≤ gap num den y.rank / (den * pow2 1074) := by
    rw [hx, div_le_div_iff_of_pos_right hpos, Nat.cast_le]
    exact gap_rankOf_le hden y.rank
  have hle (y : Binary64) : |q - x.toRat| ≤ |q - y.toRat| := hself ▸ (hgap y).trans (hother y)
  refine ⟨hle, fun y hne htie => ?_⟩
  have heq : gap num den x.rank = gap num den y.rank := by
    have h : (gap num den x.rank / (den * pow2 1074) : ℚ) =
        gap num den y.rank / (den * pow2 1074) :=
      le_antisymm (hgap y) ((hother y).trans_eq (htie.symm.trans hself))
    rwa [div_left_inj' hpos.ne', Nat.cast_inj] at h
  rw [hx] at heq ⊢
  refine even_rankOf hden (fun hunits => hne ?_) heq
  rw [← hx, ← magnitude_inj, ← abs_toRat, ← abs_toRat, abs_eq_abs] at hunits
  rcases hunits with hunits | hunits
  · exact hunits
  · -- a double of the other sign is as close only if one of the two is zero
    rw [hunits, sub_neg_eq_add, abs_eq_abs] at htie
    rcases htie with htie | htie
    · have hzero : x.toRat = 0 := by linarith
      rw [hunits, hzero, neg_zero]
    · have hq0 : q = 0 := by linarith
      have hnear := hle zero
      rw [toRat_zero, hq0, sub_zero, zero_sub, abs_neg, abs_zero, abs_nonpos_iff] at hnear
      rw [hunits, hnear, neg_zero]

end Rulebook.Binary64
