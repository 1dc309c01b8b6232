import Mathlib.Order.Compare
import Rulebook.Proofs.JsonDouble
import Rulebook.Proofs.Nearest
import Rulebook.Rule.Verdict

/-!
# The order of numbers

The signed ranks of doubles are in the order of the numbers that the doubles are
(`Binary64.order_eq_compare`), so a verdict on two numbers says how these numbers are related
(`Comparator.verdict_numbers`).

Whole numbers are compared as doubles too.  A greater one is never rounded to a smaller double,
so a comparison may lose a difference, but it never turns one around.  Up to `2 ^ 53` nothing is
rounded, and whole numbers are compared as they are.
-/

namespace Rulebook

/-! ## Relations -/

/-- The relation of two members of an order that a comparator is named for. -/
def Comparator.Relates {α : Type} [LinearOrder α] : Comparator → α → α → Prop
  | .gt, a, b => b < a
  | .lt, a, b => a < b
  | .eq, a, b => a = b
  | .ge, a, b => b ≤ a
  | .le, a, b => a ≤ b
  | .ne, a, b => a ≠ b

namespace Comparator

variable {α : Type} [LinearOrder α]

instance decidableRelates (c : Comparator) (a b : α) : Decidable (c.Relates a b) :=
  match c with
  | .gt => inferInstanceAs (Decidable (b < a))
  | .lt => inferInstanceAs (Decidable (a < b))
  | .eq => inferInstanceAs (Decidable (a = b))
  | .ge => inferInstanceAs (Decidable (b ≤ a))
  | .le => inferInstanceAs (Decidable (a ≤ b))
  | .ne => inferInstanceAs (Decidable (a ≠ b))

/-- A comparator holds of two members of an order if they are related. -/
theorem holds_compare (c : Comparator) (a b : α) :
    c.holds (compare a b) = decide (c.Relates a b) := by
  have hiff : c.holds (compare a b) = true ↔ c.Relates a b := by
    rcases lt_trichotomy a b with h | rfl | h
    · rw [compare_lt_iff_lt.mpr h]
      cases c <;> simp [holds, Relates, h, h.le, h.not_gt, h.ne, h.not_ge]
    · rw [compare_eq_iff_eq.mpr rfl]
      cases c <;> simp [holds, Relates]
    · rw [compare_gt_iff_gt.mpr h]
      cases c <;> simp [holds, Relates, h, h.le, h.not_gt, h.ne', h.not_ge]
  exact Bool.eq_iff_iff.mpr (hiff.trans decide_eq_true_iff.symm)

end Comparator

/-! ## Doubles -/

namespace Binary64

/-- A greater rank is that of a strictly greater magnitude. -/
theorem units_strictMono : StrictMono units := by
  intro r s h
  refine Nat.lt_of_le_of_ne (units_mono h.le) fun heq => h.ne ?_
  have hself (r : Nat) : rankOf (units r) (pow2 1074) = r := rankOf_of_eq (pow2_pos 1074) rfl
  rw [← hself r, heq, hself s]

theorem magnitude_strictMono : StrictMono magnitude := by
  intro r s h
  have hpos : (0 : ℚ) < pow2 1074 := Nat.cast_pos.mpr (pow2_pos 1074)
  rw [magnitude, magnitude, div_lt_div_iff_of_pos_right hpos, Nat.cast_lt]
  exact units_strictMono h

/-- The number of a signed rank. -/
def signedMagnitude (i : Int) : ℚ := if i < 0 then -magnitude i.natAbs else magnitude i.natAbs

theorem toRat_eq_signedMagnitude (x : Binary64) : x.toRat = signedMagnitude x.signedRank := by
  rw [toRat, signedRank, signedMagnitude]
  cases x.negative with
  | false => simp
  | true =>
    rcases Nat.eq_zero_or_pos x.rank with h | h
    · simp [h, magnitude_zero]
    · simp [h]

theorem signedMagnitude_lt {i j : Int} (h : i < j) : signedMagnitude i < signedMagnitude j := by
  rw [signedMagnitude, signedMagnitude]
  rcases lt_or_ge i 0 with hi0 | hi0
  · have hpos : 0 < magnitude i.natAbs := magnitude_zero ▸ magnitude_strictMono (by omega)
    rw [if_pos hi0]
    rcases lt_or_ge j 0 with hj0 | hj0
    · rw [if_pos hj0]
      exact neg_lt_neg (magnitude_strictMono (by omega))
    · rw [if_neg hj0.not_gt]
      exact (neg_neg_of_pos hpos).trans_le (magnitude_nonneg _)
  · rw [if_neg hi0.not_gt, if_neg (by omega)]
    exact magnitude_strictMono (by omega)

/-- Doubles compare like the numbers that they are. -/
theorem order_eq_compare (x y : Binary64) : x.order y = compare x.toRat y.toRat := by
  rw [order, toRat_eq_signedMagnitude, toRat_eq_signedMagnitude]
  rcases lt_trichotomy x.signedRank y.signedRank with h | h | h
  · rw [compare_lt_iff_lt.mpr h, compare_lt_iff_lt.mpr (signedMagnitude_lt h)]
  · rw [h, compare_eq_iff_eq.mpr rfl, compare_eq_iff_eq.mpr rfl]
  · rw [compare_gt_iff_gt.mpr h, compare_gt_iff_gt.mpr (signedMagnitude_lt h)]

end Binary64

/-- A verdict on two numbers says how they are related. -/
theorem Comparator.verdict_numbers (c : Comparator) {v w : Value} {x y : Binary64}
    (hx : v.number? = some x) (hy : w.number? = some y) :
    c.verdict v w = .ok (decide (c.Relates x.toRat y.toRat)) := by
  rw [verdict, hx, hy]
  exact congrArg Except.ok (by rw [Binary64.order_eq_compare, holds_compare])

/-! ## Whole numbers -/

namespace Binary64

/-- A greater whole number is not rounded to a smaller double. -/
theorem signedRank_ofInt_mono {i j : Int} (h : i ≤ j) :
    (ofInt i).signedRank ≤ (ofInt j).signedRank := by
  have hmono {m n : Nat} (hle : m ≤ n) : rankOf m 1 ≤ rankOf n 1 := rankOf_mono hle
  have hpos := @hmono i.natAbs j.natAbs
  have hneg := @hmono j.natAbs i.natAbs
  simp only [signedRank, ofInt, ofQuotient, decide_eq_true_eq]
  split
  · split
    · have := hneg (by omega)
      omega
    · omega
  · split
    · omega
    · have := hpos (by omega)
      omega

theorem toRat_ofInt_mono {i j : Int} (h : i ≤ j) : (ofInt i).toRat ≤ (ofInt j).toRat := by
  rw [toRat_eq_signedMagnitude, toRat_eq_signedMagnitude]
  rcases Int.lt_or_eq_of_le (signedRank_ofInt_mono h) with hlt | heq
  · exact (signedMagnitude_lt hlt).le
  · rw [heq]

/-- A whole number of 64 bits, with or without sign, is not rounded beyond the finite doubles. -/
theorem rank_ofInt {i : Int} (h : i.natAbs < pow2 64) : (ofInt i).rank = rankOf i.natAbs 1 := by
  have hlt : rankOf i.natAbs 1 < limit := Json.Numeral.rankOf_lt_limit h
  exact Nat.min_eq_left (Nat.le_sub_one_of_lt hlt)

theorem negative_ofInt (i : Int) : (ofInt i).negative = decide (i < 0) := rfl

/-- A whole number is rounded to the nearest double. -/
theorem nearest_ofInt {i : Int} (h : i.natAbs < pow2 64) : Nearest i (ofInt i) := by
  refine nearest_of_rank Nat.one_pos (rank_ofInt h) ?_
  rw [negative_ofInt, Nat.cast_one, div_one]
  rcases lt_or_ge i 0 with hi | hi
  · rw [if_pos (decide_eq_true hi), Nat.cast_natAbs, abs_of_neg hi, Int.cast_neg, neg_neg]
  · rw [if_neg (by simpa using hi), Nat.cast_natAbs, abs_of_nonneg hi]

theorem units_rank53 : units (rankOf (pow2 53) 1) = pow2 53 * pow2 1074 := by decide +kernel

/-- A whole number up to `2 ^ 53` is not rounded. -/
theorem magnitude_rankOf_natural {n : Nat} (h : n ≤ pow2 53) : magnitude (rankOf n 1) = n := by
  have hunits : units (rankOf n 1) = n * pow2 1074 := by
    rcases Nat.lt_or_eq_of_le h with hlt | rfl
    · exact units_rankOf_natural hlt
    · exact units_rank53
  rw [magnitude, hunits, Nat.cast_mul, mul_div_cancel_right₀ _ (pow2_ne_zero 1074)]

theorem toRat_ofInt {i : Int} (h : i.natAbs ≤ pow2 53) : (ofInt i).toRat = i := by
  have hlt : i.natAbs < pow2 64 := Nat.lt_of_le_of_lt h (by decide)
  rw [toRat, negative_ofInt, rank_ofInt hlt, magnitude_rankOf_natural h, Nat.cast_natAbs]
  rcases lt_or_ge i 0 with hi | hi
  · rw [if_pos (decide_eq_true hi), abs_of_neg hi, Int.cast_neg, neg_neg]
  · rw [if_neg (by simpa using hi), abs_of_nonneg hi]

end Binary64

theorem Int64.natAbs_toInt_lt (a : Int64) : a.toInt.natAbs < pow2 64 := by
  have hle := a.le_toInt
  have hlt := a.toInt_lt
  have h64 : pow2 64 = 18446744073709551616 := rfl
  omega

/-- Whole numbers are compared as the doubles nearest to them.  A difference may be lost, but it is
never turned around, and up to `2 ^ 53` none is lost. -/
theorem integer_verdicts (a b : Int64) :
    (a.toInt ≤ b.toInt → Comparator.le.verdict (.integer a) (.integer b) = .ok true ∧
      Comparator.gt.verdict (.integer a) (.integer b) = .ok false) ∧
    (a = b → Comparator.eq.verdict (.integer a) (.integer b) = .ok true) ∧
    (a.toInt.natAbs ≤ pow2 53 → b.toInt.natAbs ≤ pow2 53 → ∀ c : Comparator,
      c.verdict (.integer a) (.integer b) = .ok (decide (c.Relates a.toInt b.toInt))) ∧
    ∃ x, (Value.integer a).number? = some x ∧ Binary64.Nearest a.toInt x := by
  have hverdict (c : Comparator) := c.verdict_numbers (v := .integer a) (w := .integer b) rfl rfl
  refine ⟨fun hle => ?_, ?_, fun ha hb c => ?_, ?_⟩
  · have hmono := Binary64.toRat_ofInt_mono hle
    rw [hverdict, hverdict]
    exact ⟨congrArg Except.ok (decide_eq_true hmono),
      congrArg Except.ok (decide_eq_false hmono.not_gt)⟩
  · rintro rfl
    rw [hverdict]
    exact congrArg Except.ok (decide_eq_true rfl)
  · rw [hverdict, Binary64.toRat_ofInt ha, Binary64.toRat_ofInt hb]
    have hcast : c.Relates (a.toInt : ℚ) (b.toInt : ℚ) ↔ c.Relates a.toInt b.toInt := by
      cases c <;> simp [Comparator.Relates]
    exact congrArg Except.ok (decide_eq_decide.mpr hcast)
  · exact ⟨_, rfl, Binary64.nearest_ofInt (Int64.natAbs_toInt_lt a)⟩

/-- The comparison of `2 ^ 53` with itself, and with the next whole number, which is rounded to
it. -/
theorem integer_verdicts_mantissa :
    (Comparator.eq.verdict (.integer 9007199254740992) (.integer 9007199254740992) = .ok true ∧
      Comparator.lt.verdict (.integer 9007199254740992) (.integer 9007199254740992) = .ok false) ∧
    Comparator.gt.verdict (.integer 9007199254740992) (.integer 9007199254740993) = .ok false := by
  obtain ⟨-, heq, hexact, -⟩ := integer_verdicts 9007199254740992 9007199254740992
  obtain ⟨hle, -⟩ := integer_verdicts 9007199254740992 9007199254740993
  exact ⟨⟨heq rfl, hexact (by decide) (by decide) .lt⟩, (hle (by decide)).2⟩

end Rulebook
