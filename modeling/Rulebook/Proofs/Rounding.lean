import Rulebook.Number.Binary64

/-!
# Laws of rounding

`rankOf` rounds a quotient of natural numbers to a rank.  Two laws are enough for all
that is said of doubles later.

* A quotient that is a magnitude is rounded to the rank of this magnitude
  (`rankOf_of_eq`).
* A greater numerator is never rounded to a smaller rank (`rankOf_mono`).

The second holds for quotients with different denominators too (`rankOf_le_rankOf`),
because a common factor makes no difference.

Both look at the shift, the number of binary digits that do not fit into a mantissa of
53.  Of two quotients with one shift the mantissas are compared.  Where the shifts
differ, the smaller mantissa is at most `2 ^ 53` and the greater at least `2 ^ 52`, so
the ranks cannot cross.
-/

namespace Rulebook

/-! ## Powers of two -/

theorem pow2_pos (k : Nat) : 0 < pow2 k := Nat.pow_pos (by decide)

theorem pow2_add (j k : Nat) : pow2 (j + k) = pow2 j * pow2 k := Nat.pow_add 2 j k

theorem pow2_succ (k : Nat) : pow2 (k + 1) = 2 * pow2 k := by
  rw [Nat.add_comm, pow2_add]
  rfl

theorem pow10_pos (k : Nat) : 0 < pow10 k := Nat.pow_pos (by decide)

theorem pow10_succ (k : Nat) : pow10 (k + 1) = pow10 k * 10 := Nat.pow_succ 10 k

theorem pow10_add (j k : Nat) : pow10 (j + k) = pow10 j * pow10 k := Nat.pow_add 10 j k

theorem pow10_mono {j k : Nat} (h : j ≤ k) : pow10 j ≤ pow10 k :=
  Nat.pow_le_pow_right (by decide) h

theorem pow2_le_iff_le_log2 {n k : Nat} (hn : n ≠ 0) : pow2 k ≤ n ↔ k ≤ Nat.log2 n :=
  (Nat.le_log2 hn).symm

theorem lt_pow2_iff_log2_lt {n k : Nat} (hn : n ≠ 0) : n < pow2 k ↔ Nat.log2 n < k :=
  (Nat.log2_lt hn).symm

theorem log2_mono {m n : Nat} (h : m ≤ n) : Nat.log2 m ≤ Nat.log2 n := by
  by_cases hm : m = 0
  · subst hm
    rw [Nat.log2_zero]
    exact Nat.zero_le _
  · have hn : n ≠ 0 := by omega
    rw [← pow2_le_iff_le_log2 hn]
    exact Nat.le_trans (Nat.log2_self_le hm) h

namespace Binary64

/-! ## Rounding to a natural number -/

/-- A multiple of the denominator is not rounded. -/
theorem roundQuotient_mul {den : Nat} (q : Nat) (h : 0 < den) :
    roundQuotient (q * den) den = q := by
  unfold roundQuotient
  rw [Nat.mul_div_cancel q h, Nat.mul_mod_left]
  simp only [Nat.mul_zero, h, ↓reduceIte]

theorem div_le_roundQuotient (num den : Nat) : num / den ≤ roundQuotient num den := by
  unfold roundQuotient
  simp only
  split
  · exact Nat.le_refl _
  · split <;> omega

theorem roundQuotient_le (num den : Nat) : roundQuotient num den ≤ num / den + 1 := by
  unfold roundQuotient
  simp only
  split
  · omega
  · split <;> omega

/-- A greater numerator is not rounded to less. -/
theorem roundQuotient_mono {a b den : Nat} (h : a ≤ b) :
    roundQuotient a den ≤ roundQuotient b den := by
  have hq : a / den ≤ b / den := Nat.div_le_div_right h
  by_cases heq : a / den = b / den
  · -- the whole parts agree, so the remainders decide
    have hr : a % den ≤ b % den := by
      have ha := Nat.div_add_mod a den
      have hb := Nat.div_add_mod b den
      rw [heq] at ha
      omega
    unfold roundQuotient
    simp only [heq]
    repeat' split
    all_goals omega
  · calc roundQuotient a den ≤ a / den + 1 := roundQuotient_le a den
      _ ≤ b / den := by omega
      _ ≤ roundQuotient b den := div_le_roundQuotient b den

/-! ## Magnitudes -/

theorem units_of_lt {r : Nat} (h : r < pow2 52) : units r = r := by
  rw [units, if_pos h]

theorem units_of_le {r : Nat} (h : pow2 52 ≤ r) :
    units r = (pow2 52 + r % pow2 52) * pow2 (r / pow2 52 - 1) := by
  rw [units, if_neg (by omega)]

theorem units_zero : units 0 = 0 := units_of_lt (pow2_pos 52)

theorem units_ne_zero {r : Nat} (h : r ≠ 0) : units r ≠ 0 := by
  by_cases hr : r < pow2 52
  · rw [units_of_lt hr]
    exact h
  · rw [units_of_le (by omega)]
    exact Nat.ne_of_gt (Nat.mul_pos (Nat.add_pos_left (pow2_pos 52) _) (pow2_pos _))

/-- A greater rank is that of a greater magnitude. -/
theorem units_mono {r s : Nat} (h : r ≤ s) : units r ≤ units s := by
  by_cases hs : s < pow2 52
  · rw [units_of_lt hs, units_of_lt (by omega)]
    exact h
  rw [units_of_le (Nat.le_of_not_lt hs)]
  have hpos := pow2_pos (s / pow2 52 - 1)
  by_cases hr : r < pow2 52
  · rw [units_of_lt hr]
    exact Nat.le_trans (by omega) (Nat.le_mul_of_pos_right _ hpos)
  rw [units_of_le (Nat.le_of_not_lt hr)]
  have hdiv : r / pow2 52 ≤ s / pow2 52 := Nat.div_le_div_right h
  by_cases heq : r / pow2 52 = s / pow2 52
  · have hr' := Nat.div_add_mod r (pow2 52)
    have hs' := Nat.div_add_mod s (pow2 52)
    rw [heq] at hr' ⊢
    exact Nat.mul_le_mul_right _ (by omega)
  · -- one more zero behind the mantissa weighs more than a greater mantissa
    have hfirst : 1 ≤ r / pow2 52 := (Nat.le_div_iff_mul_le (pow2_pos 52)).mpr (by omega)
    have hmod := Nat.mod_lt r (pow2_pos 52)
    calc (pow2 52 + r % pow2 52) * pow2 (r / pow2 52 - 1)
        ≤ (2 * pow2 52) * pow2 (r / pow2 52 - 1) := Nat.mul_le_mul_right _ (by omega)
      _ = pow2 52 * pow2 (r / pow2 52 - 1 + 1) := by
          rw [pow2_succ (r / pow2 52 - 1), Nat.mul_comm 2, Nat.mul_assoc]
      _ ≤ pow2 52 * pow2 (s / pow2 52 - 1) :=
          Nat.mul_le_mul_left _ (Nat.pow_le_pow_right (by decide) (by omega))
      _ ≤ (pow2 52 + s % pow2 52) * pow2 (s / pow2 52 - 1) :=
          Nat.mul_le_mul_right _ (Nat.le_add_right _ _)

/-- A mantissa with `k` zeros behind it has `53 + k` binary digits. -/
theorem log2_mantissa {m : Nat} (hm : m < pow2 52) (k : Nat) :
    Nat.log2 ((pow2 52 + m) * pow2 k) = 52 + k := by
  have hne : (pow2 52 + m) * pow2 k ≠ 0 :=
    Nat.ne_of_gt (Nat.mul_pos (Nat.add_pos_left (pow2_pos 52) m) (pow2_pos k))
  apply Nat.le_antisymm
  · have : (pow2 52 + m) * pow2 k < pow2 (52 + k + 1) := by
      rw [pow2_succ (52 + k), pow2_add 52 k, ← Nat.mul_assoc]
      exact Nat.mul_lt_mul_of_pos_right (by omega) (pow2_pos k)
    have := (lt_pow2_iff_log2_lt hne).mp this
    omega
  · rw [← pow2_le_iff_le_log2 hne, pow2_add]
    exact Nat.mul_le_mul_right _ (by omega)

/-- The shift of a magnitude is the number of zeros behind its mantissa. -/
theorem log2_units_sub {r : Nat} (h : pow2 52 ≤ r) :
    Nat.log2 (units r) - 52 = r / pow2 52 - 1 := by
  rw [units_of_le h, log2_mantissa (Nat.mod_lt r (pow2_pos 52))]
  omega

/-- A quotient that is a magnitude is rounded to its rank. -/
theorem rankOf_of_eq {num den r : Nat} (hden : 0 < den) (h : num * pow2 1074 = units r * den) :
    rankOf num den = r := by
  unfold rankOf
  simp only [h, Nat.mul_div_cancel (units r) hden]
  by_cases hr : r < pow2 52
  · have hshift : Nat.log2 (units r) - 52 = 0 := by
      rw [units_of_lt hr]
      by_cases h0 : r = 0
      · subst h0
        rw [Nat.log2_zero]
      · have := (lt_pow2_iff_log2_lt h0).mp hr
        omega
    rw [hshift, Nat.zero_mul, Nat.zero_add, units_of_lt hr]
    have hone : den * pow2 0 = den := Nat.mul_one den
    rw [hone]
    exact roundQuotient_mul r hden
  · have hr' : pow2 52 ≤ r := by omega
    rw [log2_units_sub hr', units_of_le hr']
    have hmul : (pow2 52 + r % pow2 52) * pow2 (r / pow2 52 - 1) * den =
        (pow2 52 + r % pow2 52) * (den * pow2 (r / pow2 52 - 1)) := by
      rw [Nat.mul_assoc, Nat.mul_comm den]
    rw [hmul, roundQuotient_mul _ (Nat.mul_pos hden (pow2_pos _))]
    have hpos : 1 ≤ r / pow2 52 := (Nat.le_div_iff_mul_le (pow2_pos 52)).mpr (by omega)
    have hdiv := Nat.div_add_mod r (pow2 52)
    rw [Nat.mul_comm] at hdiv
    rw [← Nat.add_assoc, ← Nat.succ_mul, Nat.succ_eq_add_one, Nat.sub_add_cancel hpos]
    exact hdiv

theorem rankOf_zero {den : Nat} (hden : 0 < den) : rankOf 0 den = 0 :=
  rankOf_of_eq hden (by rw [units_zero, Nat.zero_mul, Nat.zero_mul])

/-! ## Monotonicity -/

/-- The number of binary digits of a quotient beyond a mantissa. -/
def shiftOf (num den : Nat) : Nat := Nat.log2 (num * pow2 1074 / den) - 52

theorem rankOf_eq (num den : Nat) :
    rankOf num den = shiftOf num den * pow2 52 +
      roundQuotient (num * pow2 1074) (den * pow2 (shiftOf num den)) := rfl

/-- The mantissa of a quotient is at most `2 ^ 53`. -/
theorem mantissa_le (num den : Nat) :
    roundQuotient (num * pow2 1074) (den * pow2 (shiftOf num den)) ≤ 2 * pow2 52 := by
  have hlt : num * pow2 1074 / den / pow2 (shiftOf num den) < 2 * pow2 52 := by
    rw [Nat.div_lt_iff_lt_mul (pow2_pos _), ← pow2_succ, ← pow2_add]
    by_cases h0 : num * pow2 1074 / den = 0
    · rw [h0]
      exact pow2_pos _
    · rw [lt_pow2_iff_log2_lt h0, shiftOf]
      omega
  rw [Nat.div_div_eq_div_mul] at hlt
  have := roundQuotient_le (num * pow2 1074) (den * pow2 (shiftOf num den))
  omega

/-- The mantissa of a quotient with a shift is at least `2 ^ 52`. -/
theorem le_mantissa {num den : Nat} (h : 0 < shiftOf num den) :
    pow2 52 ≤ roundQuotient (num * pow2 1074) (den * pow2 (shiftOf num den)) := by
  have h0 : num * pow2 1074 / den ≠ 0 := by
    intro h0
    rw [shiftOf, h0, Nat.log2_zero] at h
    omega
  have hle : pow2 52 ≤ num * pow2 1074 / den / pow2 (shiftOf num den) := by
    rw [Nat.le_div_iff_mul_le (pow2_pos _), ← pow2_add, pow2_le_iff_le_log2 h0]
    rw [shiftOf] at h ⊢
    omega
  rw [Nat.div_div_eq_div_mul] at hle
  exact Nat.le_trans hle (div_le_roundQuotient _ _)

theorem shiftOf_mono {a b den : Nat} (h : a ≤ b) : shiftOf a den ≤ shiftOf b den := by
  unfold shiftOf
  have := log2_mono (Nat.div_le_div_right (c := den) (Nat.mul_le_mul_right (pow2 1074) h))
  omega

/-- A greater numerator is not rounded to a smaller rank. -/
theorem rankOf_mono {a b den : Nat} (h : a ≤ b) : rankOf a den ≤ rankOf b den := by
  rw [rankOf_eq, rankOf_eq]
  have hs : shiftOf a den ≤ shiftOf b den := shiftOf_mono h
  by_cases heq : shiftOf a den = shiftOf b den
  · rw [heq]
    exact Nat.add_le_add_left (roundQuotient_mono (Nat.mul_le_mul_right _ h)) _
  · have ha := mantissa_le a den
    have hb := le_mantissa (show 0 < shiftOf b den by omega)
    have hstep : (shiftOf a den + 1) * pow2 52 ≤ shiftOf b den * pow2 52 :=
      Nat.mul_le_mul_right _ (by omega)
    rw [Nat.succ_mul] at hstep
    omega

/-! ## Quotients with different denominators -/

theorem roundQuotient_mul_right (num den : Nat) {k : Nat} (hk : 0 < k) :
    roundQuotient (num * k) (den * k) = roundQuotient num den := by
  have hlt : ∀ a b : Nat, a * k < b * k ↔ a < b := fun a b => Nat.mul_lt_mul_right hk
  unfold roundQuotient
  rw [Nat.mul_div_mul_right num den hk, Nat.mul_mod_mul_right]
  simp only [← Nat.mul_assoc, hlt]

/-- A common factor makes no difference to a quotient. -/
theorem rankOf_mul_right (num den : Nat) {k : Nat} (hk : 0 < k) :
    rankOf (num * k) (den * k) = rankOf num den := by
  have hshift : shiftOf (num * k) (den * k) = shiftOf num den := by
    rw [shiftOf, shiftOf, Nat.mul_right_comm, Nat.mul_div_mul_right _ _ hk]
  rw [rankOf_eq, rankOf_eq, hshift, Nat.mul_right_comm num, Nat.mul_right_comm den,
    roundQuotient_mul_right _ _ hk]

/-- A greater quotient is not rounded to a smaller rank. -/
theorem rankOf_le_rankOf {a b c d : Nat} (hb : 0 < b) (hd : 0 < d) (h : a * d ≤ c * b) :
    rankOf a b ≤ rankOf c d := by
  rw [← rankOf_mul_right a b hd, ← rankOf_mul_right c d hb, Nat.mul_comm d b]
  exact rankOf_mono h

end Binary64

end Rulebook
