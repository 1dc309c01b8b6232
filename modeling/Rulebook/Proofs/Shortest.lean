import Rulebook.Number.Shortest
import Rulebook.Proofs.Numeral

/-!
# Laws of the shortest decimal

The shortest decimal of a magnitude is read back as the magnitude (`rank_shortest`).
The search stops at a grid only where a neighbour is read back, so all that is left to
show is that the exact decimal is read back too.

The rest is about whole magnitudes.  The grid of the whole numbers holds a whole
magnitude itself, so the search never goes on to a finer one, as long as it gets there
in its twenty steps (`exponent_shortest_nonneg`).  It does below `2 ^ 63`.  The other
way round, a whole number is always rounded to a whole magnitude
(`dvd_units_rankOf`).  Above `2 ^ 53` this is because the magnitudes there are all
whole, and below because nothing is rounded.

From both follows which magnitudes are written as whole numbers of 64 bits
(`written_as_whole_iff`).  The magnitude `2 ^ 63` itself needs a look at its digits:
whole numbers below it are rounded to it, but its shortest decimal is above.
-/

namespace Rulebook

namespace Binary64

/-! ## The shortest decimal is read back -/

/-- A hit on a grid is read back as the magnitude and lies on the grid. -/
theorem onGrid?_eq_some {tie : Tie} {r : Nat} {e : Int} {d : Decimal}
    (h : onGrid? tie r e = some d) : d.rank = r ∧ d.exponent = e := by
  unfold onGrid? at h
  simp only at h
  split at h
  case h_1 => cases h
  case h_2 hlow _ =>
    cases h
    exact ⟨eq_of_beq hlow, rfl⟩
  case h_3 _ hhigh =>
    cases h
    exact ⟨eq_of_beq hhigh, rfl⟩
  case h_4 hlow hhigh =>
    split at h
    case h_1 =>
      cases h
      exact ⟨eq_of_beq hlow, rfl⟩
    case h_2 =>
      cases h
      exact ⟨eq_of_beq hhigh, rfl⟩
    case h_3 =>
      cases h
      exact ⟨eq_of_beq hhigh, rfl⟩
    case h_4 =>
      -- the even one of two neighbours is one of the two
      cases h
      refine ⟨?_, rfl⟩
      rcases Nat.mod_two_eq_zero_or_one (below r e).1 with heven | hodd
      · rw [heven, Nat.add_zero]
        exact eq_of_beq hlow
      · rw [hodd]
        exact eq_of_beq hhigh

theorem mul_five_mul_two (n k : Nat) : n * Nat.pow 5 k * pow2 k = n * pow10 k := by
  rw [Nat.mul_assoc]
  exact congrArg (n * ·) (Nat.mul_pow 5 2 k).symm

theorem pow2_le_pow5 : pow2 2142 ≤ Nat.pow 5 1074 := by decide +kernel

/-- The exact decimal stands for the magnitude. -/
theorem rankOf_units_mul_pow5 (r : Nat) : rankOf (units r * Nat.pow 5 1074) (pow10 1074) = r := by
  apply rankOf_of_eq (pow10_pos 1074)
  generalize 1074 = k
  exact mul_five_mul_two (units r) k

/-- The exact decimal is read back. -/
theorem rank_exact {r : Nat} (h : r ≠ 0) : (exact r).rank = r := by
  have hpos : 0 < units r := Nat.pos_of_ne_zero (units_ne_zero h)
  have hle : pow2 2142 ≤ units r * Nat.pow 5 1074 :=
    Nat.le_trans pow2_le_pow5 (Nat.le_mul_of_pos_left _ hpos)
  have hne : units r * Nat.pow 5 1074 ≠ 0 := by
    have := pow2_pos 2142
    omega
  have hlog : 2142 ≤ Nat.log2 (units r * Nat.pow 5 1074) := (pow2_le_iff_le_log2 hne).mp hle
  have hsmall : 3 * 1074 ≤ Nat.log2 (units r * Nat.pow 5 1074) + 1080 := by omega
  have hrank : (exact r).rank = rankOf (units r * Nat.pow 5 1074) (pow10 1074) :=
    Decimal.rank_fraction hne (by decide) hsmall
  rw [hrank]
  exact rankOf_units_mul_pow5 r

theorem rank_search (tie : Tie) {r : Nat} (h : r ≠ 0) :
    ∀ (n : Nat) (e : Int), (search tie r n e).rank = r
  | 0, _ => rank_exact h
  | n + 1, e => by
      rw [search]
      cases hgrid : onGrid? tie r e with
      | some d => exact (onGrid?_eq_some hgrid).1
      | none => exact rank_search tie h n (e - 1)

/-- The shortest decimal is read back as the magnitude. -/
theorem rank_shortest (tie : Tie) (r : Nat) : (shortest tie r).rank = r := by
  unfold shortest
  split
  case isTrue h => exact h.symm
  case isFalse h => exact rank_search tie h 20 (coarse r)

/-! ## Whole magnitudes -/

/-- A whole magnitude is its whole part. -/
theorem units_of_isWhole {x : Binary64} (h : x.isWhole = true) :
    units x.rank = x.truncated * pow2 1074 :=
  (Nat.div_mul_cancel (Nat.dvd_of_mod_eq_zero (eq_of_beq h))).symm

/-- A whole magnitude is what its whole part is rounded to. -/
theorem rankOf_truncated {x : Binary64} (h : x.isWhole = true) :
    rankOf x.truncated 1 = x.rank :=
  rankOf_of_eq Nat.one_pos (by rw [units_of_isWhole h, Nat.mul_one])

theorem below_zero (r : Nat) : (below r 0).1 = units r / pow2 1074 := by
  have hone : pow10 (Int.toNat 0) = 1 := rfl
  unfold below
  rw [if_pos (Int.le_refl 0), hone, Nat.mul_one]

/-- A grid whose lower neighbour is read back has a hit. -/
theorem isSome_onGrid? {tie : Tie} {r low : Nat} {half : Ordering} {e : Int}
    (hbelow : below r e = (low, half)) (h : (Decimal.mk low e).rank = r) :
    (onGrid? tie r e).isSome = true := by
  have hreads : ((Decimal.mk low e).rank == r) = true := beq_iff_eq.mpr h
  unfold onGrid?
  rw [hbelow]
  simp only [hreads]
  split
  case h_1 hfalse _ => cases hfalse
  case h_2 => rfl
  case h_3 hfalse _ => cases hfalse
  case h_4 => split <;> rfl

/-- The grid of the whole numbers holds every whole magnitude. -/
theorem isSome_onGrid?_zero (tie : Tie) {x : Binary64} (h : x.isWhole = true) :
    (onGrid? tie x.rank 0).isSome = true := by
  cases hbelow : below x.rank 0 with
  | mk low half =>
      have hlow := below_zero x.rank
      rw [hbelow] at hlow
      simp only at hlow
      apply isSome_onGrid? hbelow
      rw [hlow, Decimal.rank_natural]
      exact rankOf_truncated h

/-- A search that passes a grid with a hit does not go on to a finer one. -/
theorem le_exponent_search {tie : Tie} {r : Nat} {e₀ : Int}
    (hit : (onGrid? tie r e₀).isSome = true) :
    ∀ (n : Nat) (e : Int), e₀ ≤ e → e < e₀ + n → e₀ ≤ (search tie r n e).exponent
  | 0, e, hle, hlt => by
      rw [Int.natCast_zero] at hlt
      omega
  | n + 1, e, hle, hlt => by
      rw [search]
      cases hgrid : onGrid? tie r e with
      | some d =>
          rw [Option.getD_some, (onGrid?_eq_some hgrid).2]
          exact hle
      | none =>
          have hne : e ≠ e₀ := by
            rintro rfl
            rw [hgrid] at hit
            cases hit
          rw [Option.getD_none]
          exact le_exponent_search hit n (e - 1) (by omega) (by omega)

/-- A whole magnitude below `2 ^ 63` is written without a fraction. -/
theorem exponent_shortest_nonneg (tie : Tie) {x : Binary64} (h : x.isWhole = true)
    (hlt : x.truncated < pow2 63) : 0 ≤ (shortest tie x.rank).exponent := by
  unfold shortest
  split
  case isTrue => exact Int.le_refl 0
  case isFalse h0 =>
    have hunits : units x.rank ≠ 0 := units_ne_zero h0
    have htrunc : x.truncated ≠ 0 := by
      intro ht
      rw [units_of_isWhole h, ht, Nat.zero_mul] at hunits
      exact hunits rfl
    have hupper : Nat.log2 (units x.rank) < 63 + 1074 := by
      rw [← lt_pow2_iff_log2_lt hunits, units_of_isWhole h, pow2_add]
      exact Nat.mul_lt_mul_of_pos_right hlt (pow2_pos _)
    have hlower : 1074 ≤ Nat.log2 (units x.rank) := by
      rw [← pow2_le_iff_le_log2 hunits, units_of_isWhole h]
      exact Nat.le_mul_of_pos_left _ (Nat.pos_of_ne_zero htrunc)
    -- from a grid between `10 ^ 1` and `10 ^ 19` twenty steps reach `10 ^ 0`
    have hcoarse : 0 ≤ coarse x.rank ∧ coarse x.rank < 20 := by
      unfold coarse
      omega
    exact le_exponent_search (isSome_onGrid?_zero tie h) 20 _ hcoarse.1 (by omega)

/-! ## Whole numbers are rounded to whole magnitudes -/

/-- The magnitude of a mantissa with zeros behind it. -/
theorem units_mantissa {m : Nat} (s : Nat) (hle : pow2 52 ≤ m) (hlt : m ≤ 2 * pow2 52) :
    units (s * pow2 52 + m) = m * pow2 s := by
  have hpos := pow2_pos 52
  have hrank : pow2 52 ≤ s * pow2 52 + m := Nat.le_trans hle (Nat.le_add_left _ _)
  rw [units_of_le hrank, Nat.add_comm (s * pow2 52), Nat.add_mul_mod_self_right,
    Nat.add_mul_div_right _ _ hpos]
  by_cases heq : m = 2 * pow2 52
  · -- the mantissa has run over into one more digit
    subst heq
    rw [Nat.mul_mod_left, Nat.mul_div_cancel _ hpos, Nat.add_zero,
      show 2 + s - 1 = s + 1 by omega, pow2_succ s, Nat.mul_comm 2 (pow2 52), Nat.mul_assoc]
  · have hdiv : m / pow2 52 = 1 := Nat.div_eq_of_lt_le (by omega) (by omega)
    have hmod := Nat.div_add_mod m (pow2 52)
    rw [hdiv, Nat.mul_one] at hmod
    rw [hdiv, hmod, show 1 + s - 1 = s by omega]

theorem log2_mul_pow2 {n : Nat} (hn : n ≠ 0) (k : Nat) :
    Nat.log2 (n * pow2 k) = Nat.log2 n + k := by
  have hne : n * pow2 k ≠ 0 := Nat.mul_ne_zero hn (Nat.ne_of_gt (pow2_pos k))
  apply Nat.le_antisymm
  · have : n * pow2 k < pow2 (Nat.log2 n + 1 + k) := by
      rw [pow2_add]
      exact Nat.mul_lt_mul_of_pos_right Nat.lt_log2_self (pow2_pos k)
    have := (lt_pow2_iff_log2_lt hne).mp this
    omega
  · rw [← pow2_le_iff_le_log2 hne, pow2_add]
    exact Nat.mul_le_mul_right _ (Nat.log2_self_le hn)

theorem shiftOf_natural {n : Nat} (hn : n ≠ 0) : shiftOf n 1 = Nat.log2 n + 1022 := by
  rw [shiftOf, Nat.div_one, log2_mul_pow2 hn]
  omega

/-- A whole number that fits into the mantissa is not rounded. -/
theorem units_rankOf_natural {n : Nat} (h : n < pow2 53) :
    units (rankOf n 1) = n * pow2 1074 := by
  by_cases hn : n = 0
  · rw [hn, rankOf_zero Nat.one_pos, units_zero, Nat.zero_mul]
  · have hshift := shiftOf_natural hn
    have hle := le_mantissa (show 0 < shiftOf n 1 by omega)
    have hlog := (lt_pow2_iff_log2_lt hn).mp h
    have hexp : pow2 1074 = pow2 (52 - Nat.log2 n) * pow2 (Nat.log2 n + 1022) := by
      rw [← pow2_add]
      exact congrArg pow2 (by omega)
    rw [rankOf_eq, units_mantissa _ hle (mantissa_le n 1), hshift, Nat.one_mul, hexp,
      ← Nat.mul_assoc, roundQuotient_mul _ (pow2_pos _)]

/-- A whole number is rounded to a whole magnitude. -/
theorem dvd_units_rankOf (n : Nat) : pow2 1074 ∣ units (rankOf n 1) := by
  by_cases hlt : n < pow2 53
  · rw [units_rankOf_natural hlt]
    exact Nat.dvd_mul_left _ _
  · -- the magnitudes with this shift are multiples of a power of two beyond `2 ^ 1074`
    have hn : n ≠ 0 := by
      have := pow2_pos 53
      omega
    have hshift := shiftOf_natural hn
    have hle := le_mantissa (show 0 < shiftOf n 1 by omega)
    have hlog := (pow2_le_iff_le_log2 hn).mp (Nat.le_of_not_lt hlt)
    have hexp : pow2 (Nat.log2 n + 1022) = pow2 (Nat.log2 n - 52) * pow2 1074 := by
      rw [← pow2_add]
      exact congrArg pow2 (by omega)
    rw [rankOf_eq, units_mantissa _ hle (mantissa_le n 1), hshift, Nat.one_mul, hexp]
    exact Nat.dvd_mul_left_of_dvd (Nat.dvd_mul_left _ _) _

/-! ## Doubles that are written as whole numbers of 64 bits -/

/-- The rank of `2 ^ 63`. -/
def rank63 : Nat := rankOf (pow2 63) 1

theorem units_rank63 : units rank63 = pow2 63 * pow2 1074 := by decide +kernel

/-- The shortest decimal of `2 ^ 63` is greater than `2 ^ 63`. -/
theorem lt_shortest_rank63 : pow2 63 < (shortest .up rank63).whole := by decide +kernel

/-- Where a decimal without a fraction is rounded to. -/
theorem rankOf_whole_shortest {x : Binary64} (h : 0 ≤ (shortest .up x.rank).exponent) :
    rankOf (shortest .up x.rank).whole 1 = x.rank := by
  have hr := rank_shortest .up x.rank
  rw [← Decimal.rank_natural, Decimal.rank_whole h (by rw [hr]; exact x.rank_lt), hr]

/-- A double is written as a whole number below `2 ^ 63` exactly if it is whole and below
`2 ^ 63`. -/
theorem written_as_whole_iff (x : Binary64) :
    (0 ≤ (shortest .up x.rank).exponent ∧ (shortest .up x.rank).whole < pow2 63) ↔
      (x.isWhole = true ∧ x.truncated < pow2 63) := by
  constructor
  · rintro ⟨hexp, hlt⟩
    have hrank := rankOf_whole_shortest hexp
    have hwhole : x.isWhole = true := by
      have hdvd := dvd_units_rankOf (shortest .up x.rank).whole
      rw [hrank] at hdvd
      exact beq_iff_eq.mpr (Nat.mod_eq_zero_of_dvd hdvd)
    refine ⟨hwhole, Nat.lt_of_not_le fun hge => ?_⟩
    -- both sides are rounded to `2 ^ 63`, and its shortest decimal is known
    have hrank63 : x.rank = rank63 := by
      apply Nat.le_antisymm
      · rw [← hrank]
        exact rankOf_mono (Nat.le_of_lt hlt)
      · rw [← rankOf_truncated hwhole]
        exact rankOf_mono hge
    rw [hrank63] at hlt
    exact Nat.lt_irrefl _ (Nat.lt_trans hlt lt_shortest_rank63)
  · rintro ⟨hwhole, hlt⟩
    have hexp := exponent_shortest_nonneg .up hwhole hlt
    refine ⟨hexp, Nat.lt_of_not_le fun hge => ?_⟩
    have hrank63 : x.rank = rank63 := by
      apply Nat.le_antisymm
      · rw [← rankOf_truncated hwhole]
        exact rankOf_mono (Nat.le_of_lt hlt)
      · rw [← rankOf_whole_shortest hexp]
        exact rankOf_mono hge
    have hunits := units_of_isWhole hwhole
    rw [hrank63, units_rank63] at hunits
    have := Nat.eq_of_mul_eq_mul_right (pow2_pos 1074) hunits
    omega

end Binary64

end Rulebook
