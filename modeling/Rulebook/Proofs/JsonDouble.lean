import Rulebook.Proofs.JsonNumber
import Rulebook.Proofs.Shortest

/-!
# Doubles in JSON

A double is written with its shortest digits (`Writes`), and read back as a double, but not
always as the same one, because the reader rounds more than once: the significand, the
power of ten, and their product or quotient.  `restored` is what a double comes back as.

That it is finite needs an argument (`magnitude_lt_limit`).  For every power of ten there is
a greatest significand whose product with the power is not nearest to the greatest double,
and the reader gets from it to a finite magnitude.  It gets to no greater one from a smaller
significand (`scaled_lt_limit`).  The greatest double itself is looked at apart.

A double whose digits make up less than `2 ^ 53`, and that is written with a power of ten of at
most `10 ^ 22`, comes back as it was (`restored_eq_self`).  Its significand and the power of
ten are doubles, so the reader rounds only once.
-/

namespace Rulebook

open Rulebook.Text (isDigit)
open Digits (digits value valueAfter)

namespace Json.Numeral

/-! ## The number that is written -/

/-- The exponent of a number. -/
def shift : Option (Bool × List Char) → Int
  | none => 0
  | some (negative, ds) => if negative then -(value ds : Int) else value ds

/-- The decimal that the digits and the exponent of a number stand for. -/
def decimal (n : Numeral) : Decimal :=
  ⟨value (n.whole ++ n.fraction.getD []), shift n.exponent - (n.fraction.getD []).length⟩

end Json.Numeral

open Json.Numeral (IsRun fractionText exponentText)

/-! ## The text of a double -/

namespace Decimal

theorem zero_parts {d : Decimal} (h : d.coefficient ≠ 0) (ds : List Char)
    (hds : (parts d).1 = '0' :: ds) : ds = [] := by
  obtain ⟨c, cs, hcs⟩ := List.exists_cons_of_ne_nil (Digits.digits_ne_nil d.coefficient)
  have hc : c ≠ '0' := by
    rintro rfl
    exact Digits.digits_ne_zero_cons h cs hcs
  unfold parts at hds
  split at hds
  case isTrue =>
    rw [hcs] at hds
    exact absurd (List.cons.inj hds).1 hc
  case isFalse =>
    split at hds
    case isTrue hlt =>
      obtain ⟨k, hk⟩ : ∃ k, (digits d.coefficient).length - d.exponent.natAbs = k + 1 :=
        Nat.exists_eq_succ_of_ne_zero (by omega)
      rw [hk, hcs, List.take_succ_cons] at hds
      exact absurd (List.cons.inj hds).1 hc
    case isFalse => exact (List.cons.inj hds).2.symm

theorem isRun_parts_fst (d : Decimal) : IsRun (parts d).1 :=
  ⟨parts_fst_ne_nil d, isDigit_parts_fst d⟩

theorem isRun_parts_snd {d : Decimal} (h : d.exponent < 0) : IsRun (parts d).2 := by
  refine ⟨fun hnil => ?_, isDigit_parts_snd d⟩
  have := (parts_of_neg h).2
  rw [hnil, List.length_nil] at this
  omega

theorem length_parts_fst {d : Decimal} (h : 0 ≤ d.exponent) :
    ((parts d).1.length : Int) = d.exponent + (digits d.coefficient).length := by
  rw [parts, if_pos h, List.length_append, List.length_replicate]
  omega

theorem length_parts_fst_le {d : Decimal} (h : d.exponent < 0) :
    ((parts d).1.length : Int) ≤ max 1 (d.exponent + (digits d.coefficient).length) := by
  rw [parts, if_neg (by omega)]
  split
  case isTrue =>
    rw [List.length_take]
    omega
  case isFalse =>
    rw [List.length_singleton]
    omega

end Decimal

namespace Binary64

variable {x : Binary64}

/-- The shortest decimal of a double. -/
def decimal (x : Binary64) : Decimal := shortest .even x.rank

theorem rank_decimal (x : Binary64) : x.decimal.rank = x.rank := rank_shortest .even x.rank

theorem coefficient_decimal (h : x.rank ≠ 0) : x.decimal.coefficient ≠ 0 := by
  intro h0
  have hr := rank_decimal x
  rw [Decimal.rank, if_pos h0] at hr
  exact h hr.symm

/-- The place of the point among the digits of a double. -/
def point (x : Binary64) : Int := x.decimal.exponent + (digits x.decimal.coefficient).length

/-- The exponent of a double where one digit stands before the point. -/
def exponent (x : Binary64) : Int :=
  x.decimal.exponent + ((digits x.decimal.coefficient).drop 1).length

/-- The form of a double in data files. -/
def numeral (x : Binary64) : Json.Numeral :=
  let ds := digits x.decimal.coefficient
  if x.rank = 0 then ⟨x.negative, ['0'], some ['0'], none⟩
  else if -5 < x.point ∧ x.point ≤ 16 then
    if 0 ≤ x.decimal.exponent then ⟨x.negative, x.decimal.positional, some ['0'], none⟩
    else ⟨x.negative, x.decimal.parts.1, some x.decimal.parts.2, none⟩
  else
    ⟨x.negative, ds.take 1, if (ds.drop 1).isEmpty then none else some (ds.drop 1),
      some (decide (x.exponent < 0), digits x.exponent.natAbs)⟩

/-- What the text of a double says, and in which form. -/
structure Writes (x : Binary64) (n : Json.Numeral) : Prop where
  /-- The form is that of JSON. -/
  proper : n.Proper
  /-- The text is that of the double. -/
  text : n.text = x.data
  /-- The sign is that of the double. -/
  negative : n.negative = x.negative
  /-- The number is not kept whole. -/
  real : (n.fraction.isSome || n.exponent.isSome) = true
  /-- The digits are those of a decimal that is rounded to the double. -/
  rank : n.decimal.rank = x.rank
  /-- The digits before the point fit 64 bits. -/
  whole : value n.whole < pow2 64
  /-- An exponent without a minus is not huge. -/
  exponent : ∀ ds, n.exponent = some (false, ds) → value ds < pow2 31

theorem withSign_eq (x : Binary64) (cs : List Char) :
    withSign x cs = (if x.negative then ['-'] else []) ++ cs := by
  unfold withSign
  split <;> rfl

theorem isRun_zero : IsRun ['0'] :=
  ⟨List.cons_ne_nil _ _, List.forall_mem_singleton.mpr (by decide)⟩

/-- The text of a double in terms of its shortest decimal. -/
theorem data_eq (x : Binary64) : x.data = withSign x (
    if x.rank = 0 then ['0', '.', '0']
    else if -5 < x.point ∧ x.point ≤ 16 then
      if 0 ≤ x.decimal.exponent then x.decimal.positional ++ ['.', '0'] else x.decimal.positional
    else scientific x.decimal) := rfl

theorem value_lt_of_length {cs : List Char} (h : ∀ c ∈ cs, isDigit c = true)
    (hlength : cs.length ≤ 16) : value cs < pow2 64 :=
  calc value cs < pow10 cs.length := Digits.value_lt_pow10 h
    _ ≤ pow10 16 := Nat.pow_le_pow_right (by decide) hlength
    _ ≤ pow2 64 := by decide

/-- Zero is written with a zero after the point. -/
theorem writes_zero (h : x.rank = 0) : Writes x ⟨x.negative, ['0'], some ['0'], none⟩ where
  proper := {
    whole := isRun_zero
    zero := fun ds hds => (List.cons.inj hds).2.symm
    fraction := fun ds hds => by
      cases hds
      exact isRun_zero
    exponent := fun _ _ h => nomatch h }
  text := by
    rw [data_eq, if_pos h, withSign_eq]
    rfl
  negative := rfl
  real := rfl
  rank := h ▸ rfl
  whole := value_lt_of_length isRun_zero.isDigit (Nat.le_of_ble_eq_true rfl)
  exponent _ h := nomatch h

/-- A whole double that is not great is written with a zero after the point. -/
theorem writes_whole (h : x.rank ≠ 0) (hpoint : -5 < x.point ∧ x.point ≤ 16)
    (he : 0 ≤ x.decimal.exponent) :
    Writes x ⟨x.negative, x.decimal.positional, some ['0'], none⟩ where
  proper := {
    whole := Decimal.positional_of_nonneg he ▸ Decimal.isRun_parts_fst _
    zero := fun ds hds =>
      Decimal.zero_parts (coefficient_decimal h) ds (Decimal.positional_of_nonneg he ▸ hds)
    fraction := fun ds hds => by
      cases hds
      exact isRun_zero
    exponent := fun _ _ h => nomatch h }
  text := by
    rw [data_eq, if_neg h, if_pos hpoint, if_pos he, withSign_eq]
    rfl
  negative := rfl
  real := rfl
  rank := by
    have hvalue : value (x.decimal.positional ++ ['0']) = x.decimal.whole * 10 := by
      rw [← Decimal.value_positional he]
      exact Digits.value_append_zeros x.decimal.positional 1
    have hne : x.decimal.whole * 10 ≠ 0 :=
      Nat.mul_ne_zero (Nat.mul_ne_zero (coefficient_decimal h) (Nat.ne_of_gt (pow10_pos _)))
        (by decide)
    have hwhole := Decimal.rank_whole he (by rw [rank_decimal]; exact x.rank_lt)
    rw [Decimal.rank_natural, rank_decimal] at hwhole
    simp only [Json.Numeral.decimal, Json.Numeral.shift, Option.getD_some, hvalue]
    have hfraction := Decimal.rank_fraction hne Nat.one_pos (by omega)
    rw [← hwhole, ← rankOf_mul_right x.decimal.whole 1 (show 0 < 10 by decide)]
    exact hfraction
  whole := by
    have hlength : x.decimal.parts.1.length ≤ 16 := by
      have := Decimal.length_parts_fst he
      rw [point] at hpoint
      omega
    rw [Decimal.positional_of_nonneg he]
    exact value_lt_of_length (Decimal.isRun_parts_fst x.decimal).isDigit hlength
  exponent _ h := nomatch h

/-- A double with a fraction that is not small is written with its digits around the point. -/
theorem writes_fraction (h : x.rank ≠ 0) (hpoint : -5 < x.point ∧ x.point ≤ 16)
    (he : x.decimal.exponent < 0) :
    Writes x ⟨x.negative, x.decimal.parts.1, some x.decimal.parts.2, none⟩ where
  proper := {
    whole := Decimal.isRun_parts_fst _
    zero := Decimal.zero_parts (coefficient_decimal h)
    fraction := fun ds hds => by
      cases hds
      exact Decimal.isRun_parts_snd he
    exponent := fun _ _ h => nomatch h }
  text := by
    rw [data_eq, if_neg h, if_pos hpoint, if_neg (by omega), withSign_eq,
      Decimal.positional_of_neg he]
    simp only [Json.Numeral.text, fractionText, exponentText, List.append_nil]
  negative := rfl
  real := rfl
  rank := by
    obtain ⟨hvalue, hlength⟩ := Decimal.parts_of_neg he
    simp only [Json.Numeral.decimal, Json.Numeral.shift, Option.getD_some, hvalue,
      Int.zero_sub, hlength]
    exact rank_decimal x
  whole := by
    have hlength : x.decimal.parts.1.length ≤ 16 := by
      have := Decimal.length_parts_fst_le he
      rw [point] at hpoint
      omega
    exact value_lt_of_length (Decimal.isRun_parts_fst x.decimal).isDigit hlength
  exponent _ h := nomatch h

/-- A power of ten that is infinite. -/
theorem limit_le_rankOf_pow10 : limit ≤ rankOf (pow10 309) 1 := by decide +kernel

/-- The power of ten behind the first digit of a double is not beyond the doubles. -/
theorem exponent_lt (h : x.rank ≠ 0) : x.exponent < 309 := by
  by_contra hge
  have hc := Digits.pow10_le_of_digits (coefficient_decimal h)
  have hlength : ((digits x.decimal.coefficient).drop 1).length =
      (digits x.decimal.coefficient).length - 1 := List.length_drop
  rw [exponent, hlength] at hge
  have hle : rankOf (pow10 309) 1 ≤ x.decimal.rank := by
    refine Decimal.rankOf_le_rank (by rw [rank_decimal]; exact x.rank_lt) ?_
    refine Nat.le_trans ?_ (Nat.mul_le_mul_right _ hc)
    rw [← pow10_add, ← pow10_add]
    exact pow10_mono (by omega)
  have hlimit := limit_le_rankOf_pow10
  have := x.rank_lt
  rw [rank_decimal] at hle
  omega

theorem isRun_take_one {ds : List Char} (h : IsRun ds) : IsRun (ds.take 1) := by
  refine ⟨fun hnil => ?_, fun c hc => h.isDigit c (List.mem_of_mem_take hc)⟩
  rcases List.take_eq_nil_iff.mp hnil with h0 | h0
  · cases h0
  · exact h.ne_nil h0

theorem fractionText_ite (ds : List Char) :
    fractionText (if ds.isEmpty then none else some ds) = if ds.isEmpty then [] else '.' :: ds := by
  split <;> rfl

theorem getD_ite_isEmpty (ds : List Char) :
    (if ds.isEmpty then none else some ds : Option (List Char)).getD [] = ds := by
  cases ds <;> rfl

/-- Other doubles are written with one digit before the point and an exponent. -/
theorem writes_scientific (h : x.rank ≠ 0) (hpoint : ¬ (-5 < x.point ∧ x.point ≤ 16)) :
    Writes x ⟨x.negative, (digits x.decimal.coefficient).take 1,
      if ((digits x.decimal.coefficient).drop 1).isEmpty then none
      else some ((digits x.decimal.coefficient).drop 1),
      some (decide (x.exponent < 0), digits x.exponent.natAbs)⟩ where
  proper := {
    whole := isRun_take_one (Json.Numeral.isRun_digits _)
    zero := fun ds hds => by
      have hlength := List.length_take_le 1 (digits x.decimal.coefficient)
      change (digits x.decimal.coefficient).take 1 = '0' :: ds at hds
      rw [hds, List.length_cons] at hlength
      exact List.length_eq_zero_iff.mp (by omega)
    fraction := fun ds hds => by
      change (if ((digits x.decimal.coefficient).drop 1).isEmpty then none
        else some ((digits x.decimal.coefficient).drop 1)) = some ds at hds
      split at hds
      case isTrue => cases hds
      case isFalse hne =>
        cases hds
        exact ⟨fun hnil => hne (hnil ▸ rfl), fun c hc =>
          Digits.all_isDigit_digits _ c (List.mem_of_mem_drop hc)⟩
    exponent := fun negative ds hds => by
      cases hds
      exact Json.Numeral.isRun_digits _ }
  text := by
    rw [data_eq, if_neg h, if_neg hpoint, withSign_eq, scientific]
    simp only [Json.Numeral.text, fractionText_ite, exponentText, decide_eq_true_eq]
    rw [← exponent, List.append_assoc]
    by_cases hneg : x.exponent < 0
    · rw [if_pos hneg, if_neg (show ¬ 0 ≤ x.exponent by omega)]
    · rw [if_neg hneg, if_pos (show 0 ≤ x.exponent by omega)]
  negative := rfl
  real := by rw [Option.isSome_some, Bool.or_true]
  rank := by
    have hshift : (if x.exponent < 0 then -(x.exponent.natAbs : Int) else x.exponent.natAbs) =
        x.exponent := by
      split <;> omega
    simp only [Json.Numeral.decimal, Json.Numeral.shift, getD_ite_isEmpty, List.take_append_drop,
      Digits.value_digits, decide_eq_true_eq, hshift]
    rw [exponent, Int.add_sub_cancel]
    exact rank_decimal x
  whole := by
    have hlength : ((digits x.decimal.coefficient).take 1).length ≤ 16 := by
      have := List.length_take_le 1 (digits x.decimal.coefficient)
      omega
    exact value_lt_of_length (isRun_take_one (Json.Numeral.isRun_digits _)).isDigit hlength
  exponent ds hds := by
    simp only [Option.some.injEq, Prod.mk.injEq, decide_eq_false_iff_not] at hds
    obtain ⟨hnonneg, rfl⟩ := hds
    have := exponent_lt h
    rw [Digits.value_digits]
    have h31 : 309 ≤ pow2 31 := by decide
    omega

/-- The text of a double says what the double is. -/
theorem writes_numeral (x : Binary64) : Writes x x.numeral := by
  unfold numeral
  simp only
  split
  case isTrue h => exact writes_zero h
  case isFalse h =>
    split
    case isTrue hpoint =>
      split
      case isTrue he => exact writes_whole h hpoint he
      case isFalse he => exact writes_fraction h hpoint (by omega)
    case isFalse hpoint => exact writes_scientific h hpoint

end Binary64

/-! ## The significand that is read -/

namespace Json.Numeral

open Binary64 (limit rankOf units)

/-- Digits that fit 64 bits are all taken. -/
theorem absorb_of_lt : ∀ {s : Nat} {ds : List Char}, valueAfter s ds < pow2 64 →
    absorb s ds = (valueAfter s ds, [])
  | _, [], _ => rfl
  | s, d :: ds, h => by
      have hnext : valueAfter s [d] < pow2 64 := by
        rw [Digits.valueAfter_cons] at h ⊢
        exact Nat.lt_of_le_of_lt
          (Nat.le_trans (Nat.le_mul_of_pos_right _ (pow10_pos _)) (Digits.le_valueAfter _ ds)) h
      have hrest : valueAfter (valueAfter s [d]) ds < pow2 64 := by
        rw [Digits.valueAfter_cons] at h ⊢
        exact h
      rw [absorb, if_pos hnext, absorb_of_lt hrest]
      rw [Digits.valueAfter_cons, Digits.valueAfter_cons]
      rfl

/-- The digits that are left out make the number smaller. -/
theorem absorb_le : ∀ (s : Nat) (ds : List Char),
    (absorb s ds).1 * pow10 (absorb s ds).2.length ≤ valueAfter s ds
  | s, [] => Nat.le_of_eq (Nat.mul_one s)
  | s, d :: ds => by
      rw [absorb]
      split
      case isTrue =>
        refine Nat.le_trans (absorb_le _ ds) (Nat.le_of_eq ?_)
        rw [Digits.valueAfter_cons, Digits.valueAfter_cons]
        rfl
      case isFalse => exact Digits.le_valueAfter s (d :: ds)

theorem length_absorb_le : ∀ (s : Nat) (ds : List Char), (absorb s ds).2.length ≤ ds.length
  | _, [] => Nat.le_refl 0
  | s, d :: ds => by
      rw [absorb]
      split
      case isTrue => exact Nat.le_succ_of_le (length_absorb_le _ ds)
      case isFalse => exact Nat.le_refl _

theorem absorb_lt : ∀ {s : Nat} (ds : List Char), s < pow2 64 → (absorb s ds).1 < pow2 64
  | _, [], h => h
  | s, d :: ds, h => by
      rw [absorb]
      split
      case isTrue hnext => exact absorb_lt ds hnext
      case isFalse => exact h

/-! ## Powers of ten -/

theorem tenTo_eq {k : Nat} (h : k ≤ 308) : tenTo k = rankOf (pow10 k) 1 := by
  have hk : ¬ (310 : Int) < k := by omega
  rw [tenTo, Decimal.rank, if_neg Nat.one_ne_zero, if_pos (Int.natCast_nonneg k), if_neg hk]
  exact congrArg (rankOf · 1) (Nat.one_mul _)

theorem tenTo_mono {j k : Nat} (h : j ≤ k) (hk : k ≤ 308) : tenTo j ≤ tenTo k := by
  rw [tenTo_eq (Nat.le_trans h hk), tenTo_eq hk]
  exact Binary64.rankOf_mono (pow10_mono h)

/-- To divide by a power of ten does not make a magnitude greater. -/
theorem divided_le (r power : Nat) : divided r power ≤ r := by
  have hquotient : ∀ r {k : Nat}, k ≤ 308 → Binary64.quotientRank r (tenTo k) ≤ r := by
    intro r k hk
    have hone : pow2 1074 ≤ units (tenTo k) := by
      rw [← Nat.one_mul (pow2 1074), ← Binary64.units_rankOf_natural (by decide), tenTo_eq hk]
      exact Binary64.units_mono (Binary64.rankOf_mono (pow10_pos k))
    have hself : rankOf (units r) (pow2 1074) = r := Binary64.rankOf_of_eq (pow2_pos _) rfl
    calc rankOf (units r) (units (tenTo k)) ≤ rankOf (units r) (pow2 1074) :=
          Binary64.rankOf_le_rankOf (Nat.lt_of_lt_of_le (pow2_pos _) hone) (pow2_pos _)
            (Nat.mul_le_mul_left _ hone)
      _ = r := hself
  fun_induction divided r power with
  | case1 r power h => exact hquotient r h
  | case2 => exact Nat.zero_le _
  | case3 r power _ _ ih => exact Nat.le_trans ih (hquotient r (Nat.le_refl 308))

/-! ## No double becomes infinite -/

theorem productRank_mono {r s : Nat} (hr : r ≤ s) {j k : Nat} (h : j ≤ k) :
    Binary64.productRank r j ≤ Binary64.productRank s k :=
  Binary64.rankOf_mono (Nat.mul_le_mul (Binary64.units_mono hr) (Binary64.units_mono h))

/-- The greatest significand whose product with a power of ten is not nearest to the greatest
double. -/
def topSignificand (power : Nat) : Nat := (pow2 54 - 3) * pow2 970 / pow10 power

/-- The greatest significand of 64 bits stays below infinity up to `10 ^ 288`. -/
theorem productRank_pow2_64 : Binary64.productRank (rankOf (pow2 64) 1) (tenTo 288) < limit := by
  decide +kernel

/-- Beyond that the significands near the greatest double count. -/
theorem productRank_topSignificand : ∀ k < 20,
    Binary64.productRank (rankOf (topSignificand (289 + k)) 1) (tenTo (289 + k)) < limit ∧
      limit - 1 ≤ rankOf ((topSignificand (289 + k) + 1) * pow10 (289 + k)) 1 := by
  decide +kernel

/-- A product with a power of ten that is a double is finite, if it is nearest to a smaller double
than the greatest one. -/
theorem productRank_lt_limit {s k : Nat} (hs : s < pow2 64) (hk : k ≤ 308)
    (h : rankOf (s * pow10 k) 1 < limit - 1) :
    Binary64.productRank (rankOf s 1) (tenTo k) < limit := by
  by_cases hsmall : k ≤ 288
  · have hrank : rankOf s 1 ≤ rankOf (pow2 64) 1 := Binary64.rankOf_mono (Nat.le_of_lt hs)
    exact Nat.lt_of_le_of_lt (productRank_mono hrank (tenTo_mono hsmall (by decide)))
      productRank_pow2_64
  · obtain ⟨htop, hnext⟩ := productRank_topSignificand (k - 289) (by omega)
    rw [show 289 + (k - 289) = k by omega] at htop hnext
    have hst : s ≤ topSignificand k := by
      by_contra hgt
      have hmono : rankOf ((topSignificand k + 1) * pow10 k) 1 ≤ rankOf (s * pow10 k) 1 :=
        Binary64.rankOf_mono (Nat.mul_le_mul_right _ (by omega))
      omega
    exact Nat.lt_of_le_of_lt (productRank_mono (Binary64.rankOf_mono hst) (Nat.le_refl _)) htop

/-- A significand of 64 bits is nearest to a finite double. -/
theorem rankOf_lt_limit {s : Nat} (hs : s < pow2 64) : rankOf s 1 < limit :=
  calc rankOf s 1 ≤ rankOf (pow2 64) 1 := Binary64.rankOf_mono (Nat.le_of_lt hs)
    _ < limit := by decide +kernel

/-- A number below the greatest double is not read as infinite. -/
theorem scaled_lt_limit {s : Nat} {e : Int} (hs : s < pow2 64)
    (h : 0 ≤ e → rankOf (s * pow10 e.toNat) 1 < limit - 1) : scaled s e < limit := by
  unfold scaled
  simp only
  split
  case isTrue =>
    exact Nat.lt_of_le_of_lt (divided_le _ _) (rankOf_lt_limit hs)
  case isFalse hneg =>
    have hlt := h (by omega)
    split
    case isTrue hgreat =>
      split
      case isTrue => decide
      case isFalse hne =>
        -- a significand other than zero makes a power of ten that is infinite
        have hs0 : 0 < s := Nat.pos_of_ne_zero fun h0 => hne (by
          rw [h0]
          exact Binary64.rankOf_zero Nat.one_pos)
        have hten := Binary64.limit_le_rankOf_pow10
        have hmono : rankOf (pow10 309) 1 ≤ rankOf (s * pow10 e.toNat) 1 :=
          Binary64.rankOf_mono
            (Nat.le_trans (pow10_mono (by omega)) (Nat.le_mul_of_pos_left _ hs0))
        omega
    case isFalse hle => exact productRank_lt_limit hs (by omega) hlt

/-- The magnitude of a significand times a power of ten, with an exponent written behind it. -/
def scaledBehind (s : Nat) (e : Int) : Option (Bool × List Char) → Nat
  | none => scaled s e
  | some (negative, ds) =>
    if pow2 31 ≤ value ds then if s = 0 ∨ negative then 0 else limit
    else scaled s (clamped (if negative then e - value ds else e + value ds))

/-- The magnitude of a number whose digits before the point fit 64 bits. -/
theorem magnitude_eq {n : Numeral} (h : value n.whole < pow2 64) :
    n.magnitude = scaledBehind (absorb (value n.whole) (n.fraction.getD [])).1
      ((absorb (value n.whole) (n.fraction.getD [])).2.length - (n.fraction.getD []).length)
      n.exponent := by
  have hwhole : absorb 0 n.whole = (value n.whole, []) := absorb_of_lt h
  obtain ⟨negative, whole, fraction, exponent⟩ := n
  simp only at hwhole
  cases fraction with
  | none => cases exponent <;> simp only [magnitude, hwhole, scaledBehind, Option.getD_none, absorb,
      List.length_nil, Int.natCast_zero, Int.sub_zero]
  | some ds =>
      have hle := length_absorb_le (value whole) ds
      have hexp : ((0 : Nat) : Int) - (ds.length - (absorb (value whole) ds).2.length : Nat) =
          (absorb (value whole) ds).2.length - ds.length := by
        omega
      cases exponent <;>
        simp only [magnitude, hwhole, scaledBehind, Option.getD_some, List.length_nil, hexp]

/-- The significand and the power of ten that are read make up no more than the number. -/
theorem rankOf_absorbed_le {n : Numeral} (hr : n.decimal.rank < limit) {e : Int} (h : 0 ≤ e)
    (he : e ≤ (absorb (value n.whole) (n.fraction.getD [])).2.length -
      (n.fraction.getD []).length + shift n.exponent) :
    rankOf ((absorb (value n.whole) (n.fraction.getD [])).1 * pow10 e.toNat) 1 ≤
      n.decimal.rank := by
  apply Decimal.rankOf_le_rank hr
  have habsorb := absorb_le (value n.whole) (n.fraction.getD [])
  rw [← Digits.value_append] at habsorb
  refine Nat.le_trans ?_ (Nat.mul_le_mul_right _ habsorb)
  rw [Nat.mul_assoc, Nat.mul_assoc, ← pow10_add, ← pow10_add]
  refine Nat.mul_le_mul_left _ (pow10_mono ?_)
  simp only [decimal]
  omega

/-- A number is not infinite if it is nearest to a smaller double than the greatest one. -/
theorem magnitude_lt_limit {n : Numeral} (hwhole : value n.whole < pow2 64)
    (hexp : ∀ ds, n.exponent = some (false, ds) → value ds < pow2 31)
    (hr : n.decimal.rank < limit - 1) : n.magnitude < limit := by
  have hle := fun e => @rankOf_absorbed_le n (Nat.lt_of_lt_of_le hr (Nat.sub_le _ _)) e
  have hs := absorb_lt (n.fraction.getD []) hwhole
  rw [magnitude_eq hwhole]
  generalize n.exponent = x at hle hexp
  match x with
  | none =>
      exact scaled_lt_limit hs fun h =>
        Nat.lt_of_le_of_lt (hle _ h (Int.le_of_eq (Int.add_zero _).symm)) hr
  | some (negative, ds) =>
      rw [scaledBehind]
      split
      case isTrue hgreat =>
        cases negative with
        | true =>
            rw [if_pos (Or.inr rfl)]
            decide
        | false => exact absurd (hexp ds rfl) (Nat.not_lt_of_le hgreat)
      case isFalse =>
        refine scaled_lt_limit hs fun h => Nat.lt_of_le_of_lt (hle _ h ?_) hr
        cases negative with
        | true =>
            simp only [clamped, shift, ↓reduceIte] at h ⊢
            omega
        | false =>
            simp only [clamped, shift, Bool.false_eq_true, ↓reduceIte] at h ⊢
            omega

end Json.Numeral

/-! ## What a double comes back as -/

namespace Binary64

theorem magnitude_numeral_lt (x : Binary64) : x.numeral.magnitude < limit := by
  have hw := writes_numeral x
  by_cases hr : x.rank < limit - 1
  · exact Json.Numeral.magnitude_lt_limit hw.whole hw.exponent (hw.rank ▸ hr)
  · have hgreatest : ∀ negative,
        (Binary64.mk negative (limit - 1) (by decide)).numeral.magnitude < limit := by
      decide +kernel
    obtain ⟨negative, r, hlt⟩ := x
    obtain rfl : r = limit - 1 := by
      simp only at hr
      omega
    exact hgreatest negative

/-- The double that the text of a double is read as. -/
def restored (x : Binary64) : Binary64 := ⟨x.negative, x.numeral.magnitude, magnitude_numeral_lt x⟩

/-- The number that a double is written as is not kept whole, and is not infinite. -/
theorem toJson?_numeral (x : Binary64) : x.numeral.toJson? = some (.real x.restored) := by
  have hw := writes_numeral x
  have hinteger : x.numeral.integer? = none := by
    rw [Json.Numeral.integer?, if_pos hw.real]
  rw [Json.Numeral.toJson?, hinteger]
  simp only [dif_pos (magnitude_numeral_lt x), hw.negative]
  rfl

end Binary64

namespace Json.Numeral

open Binary64 (limit rankOf units)

/-! ## Numbers that are rounded once -/

theorem units_tenTo : ∀ k < 23, units (tenTo k) = pow10 k * pow2 1074 := by decide +kernel

/-- A significand below `2 ^ 53` and a power of ten up to `10 ^ 22` are doubles. -/
theorem scaled_eq_rank {s : Nat} {e : Int} (hs : s < pow2 53) (he : e.natAbs ≤ 22) :
    scaled s e = (Decimal.mk s e).rank := by
  have hunits := Binary64.units_rankOf_natural hs
  have hten := units_tenTo e.natAbs (by omega)
  have hpos := pow2_pos 1074
  by_cases hneg : e < 0
  · have hdivided : scaled s e = rankOf s (pow10 e.natAbs) := by
      rw [scaled, if_pos hneg, divided, if_pos (by omega), Binary64.quotientRank, hunits, hten,
        Binary64.rankOf_mul_right _ _ hpos]
    by_cases h0 : s = 0
    · rw [hdivided, Decimal.rank, if_pos h0, h0]
      exact Binary64.rankOf_zero (pow10_pos _)
    · rw [hdivided, ← Decimal.rank_fraction h0 (by omega) (by omega)]
      exact congrArg (fun e => (Decimal.mk s e).rank) (by omega)
  · have htoNat : e.toNat = e.natAbs := by omega
    have hproduct : scaled s e = rankOf (s * pow10 e.natAbs) 1 := by
      have hfactor : s * pow2 1074 * (pow10 e.natAbs * pow2 1074) =
          s * pow10 e.natAbs * pow2 2148 := by
        rw [show pow2 2148 = pow2 1074 * pow2 1074 from pow2_add 1074 1074]
        exact Nat.mul_mul_mul_comm _ _ _ _
      have hcancel := Binary64.rankOf_mul_right (s * pow10 e.natAbs) 1 (pow2_pos 2148)
      rw [Nat.one_mul] at hcancel
      rw [scaled, if_neg hneg, if_neg (by omega), htoNat, Binary64.productRank, hunits, hten,
        hfactor, hcancel]
    rw [hproduct, Decimal.rank]
    by_cases h0 : s = 0
    · rw [if_pos h0, h0, Nat.zero_mul]
      exact Binary64.rankOf_zero Nat.one_pos
    · rw [if_neg h0, if_pos (show 0 ≤ e by omega), if_neg (show ¬ 310 < e by omega), htoNat]

/-- A number whose digits and whose power of ten are doubles is rounded once. -/
theorem magnitude_eq_rank {n : Numeral} (hwhole : value n.whole < pow2 64)
    (hexp : ∀ ds, n.exponent = some (false, ds) → value ds < pow2 31)
    (hs : n.decimal.coefficient < pow2 53) (he : n.decimal.exponent.natAbs ≤ 22) :
    n.magnitude = n.decimal.rank := by
  have hcoefficient : n.decimal.coefficient = valueAfter (value n.whole) (n.fraction.getD []) :=
    Digits.value_append _ _
  have habsorb : absorb (value n.whole) (n.fraction.getD []) = (n.decimal.coefficient, []) := by
    rw [hcoefficient] at hs ⊢
    exact absorb_of_lt (Nat.lt_trans hs (by decide))
  have hscaled := scaled_eq_rank hs he
  have hdecimal : n.decimal.exponent = shift n.exponent - (n.fraction.getD []).length := rfl
  have h31 : pow2 31 = 2147483648 := rfl
  rw [magnitude_eq hwhole, habsorb, List.length_nil, Int.natCast_zero, Int.zero_sub, ← hscaled]
  generalize n.exponent = x at hdecimal hexp
  match x with
  | none => rw [hdecimal, shift, Int.zero_sub, scaledBehind]
  | some (negative, ds) =>
      rw [scaledBehind]
      cases negative with
      | true =>
          simp only [shift, ↓reduceIte] at hdecimal ⊢
          rw [if_neg (by omega), clamped]
          exact congrArg _ (by omega)
      | false =>
          have := hexp ds rfl
          simp only [shift, Bool.false_eq_true, ↓reduceIte] at hdecimal ⊢
          rw [if_neg (by omega), clamped]
          exact congrArg _ (by omega)

end Json.Numeral

namespace Binary64

/-- A double comes back as it was, if its digits and its power of ten are doubles. -/
theorem restored_eq_self {x : Binary64} (hs : x.numeral.decimal.coefficient < pow2 53)
    (he : x.numeral.decimal.exponent.natAbs ≤ 22) : x.restored = x := by
  have hw := writes_numeral x
  suffices hmagnitude : x.numeral.magnitude = x.rank by
    rw [restored]
    simp only [hmagnitude]
  rw [← hw.rank]
  exact Json.Numeral.magnitude_eq_rank hw.whole hw.exponent hs he

end Binary64

end Rulebook
