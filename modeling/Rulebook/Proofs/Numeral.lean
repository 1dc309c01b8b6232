import Mathlib.Data.List.TakeWhile
import Rulebook.Number.Decimal
import Rulebook.Proofs.Rounding

/-!
# Written decimals are read back

A decimal in positional notation is a run of digits, with one point among them if it
has a fraction.  Both readers of numerals take such a text apart again: `read?` gives
the number that the digits stand for, and `readInt?` takes it exactly where there is no
point.

`read?_positional` puts this together.  A fraction comes back as the very decimal that
was written.  Without a fraction the zeros behind the digits become digits of the
coefficient, so only the number comes back, and `rank_whole` says that it rounds to the
same double.
-/

namespace Rulebook

open Rulebook.Text (isDigit)

namespace Digits

/-! ## Zeros in front and behind -/

theorem valueAfter_zeros (n : Nat) :
    ∀ k, valueAfter n (List.replicate k '0') = n * pow10 k
  | 0 => (Nat.mul_one n).symm
  | k + 1 => by
      rw [List.replicate_succ', valueAfter, List.foldl_append]
      have ih := valueAfter_zeros n k
      rw [valueAfter] at ih
      rw [ih, pow10_succ]
      simp only [List.foldl_cons, List.foldl_nil]
      rw [Nat.mul_comm 10, Nat.mul_assoc]
      rfl

theorem value_append_zeros (cs : List Char) (k : Nat) :
    value (cs ++ List.replicate k '0') = value cs * pow10 k := by
  rw [value_append, valueAfter_zeros]

theorem value_zeros_append (k : Nat) (cs : List Char) :
    value (List.replicate k '0' ++ cs) = value cs := by
  rw [value_append, value, valueAfter_zeros, Nat.zero_mul]
  rfl

/-- Ten times a number has one more zero. -/
theorem digits_mul_ten {n : Nat} (hn : 0 < n) : digits (n * 10) = digits n ++ ['0'] := by
  rw [digits, if_neg (by omega), Nat.mul_div_cancel n (by decide), Nat.mul_mod_left]
  rfl

theorem digits_mul_pow10 {n : Nat} (hn : 0 < n) :
    ∀ k, digits (n * pow10 k) = digits n ++ List.replicate k '0'
  | 0 => by
      rw [List.replicate_zero, List.append_nil]
      exact congrArg digits (Nat.mul_one n)
  | k + 1 => by
      rw [pow10_succ, ← Nat.mul_assoc, digits_mul_ten (Nat.mul_pos hn (pow10_pos k)),
        digits_mul_pow10 hn k, List.replicate_succ', List.append_assoc]

/-! ## The size of a run of digits -/

theorem valueAfter_cons (n : Nat) (c : Char) (cs : List Char) :
    valueAfter n (c :: cs) = valueAfter (10 * n + (c.toNat - 48)) cs := by
  simp only [valueAfter, List.foldl_cons]

/-- A number that stands before digits counts as often as the digits say. -/
theorem valueAfter_eq (n : Nat) : ∀ cs, valueAfter n cs = n * pow10 cs.length + value cs
  | [] => (Nat.mul_one n).symm
  | c :: cs => by
      have hvalue : value (c :: cs) = (c.toNat - 48) * pow10 cs.length + value cs := by
        rw [value, valueAfter_cons, valueAfter_eq _ cs, Nat.mul_zero, Nat.zero_add]
      rw [valueAfter_cons, valueAfter_eq _ cs, hvalue, List.length_cons, pow10_succ, Nat.add_mul,
        Nat.add_assoc, Nat.mul_comm 10, Nat.mul_assoc, Nat.mul_comm 10]

theorem le_valueAfter (n : Nat) (cs : List Char) : n * pow10 cs.length ≤ valueAfter n cs := by
  rw [valueAfter_eq]
  exact Nat.le_add_right _ _

theorem value_lt_pow10 : ∀ {cs : List Char}, (∀ c ∈ cs, isDigit c = true) →
    value cs < pow10 cs.length
  | [], _ => by decide
  | c :: cs, h => by
      have ih := value_lt_pow10 fun d hd => h d (List.mem_cons_of_mem c hd)
      have hc : c.toNat ≤ 57 := by
        have := h c List.mem_cons_self
        simp only [isDigit, Bool.and_eq_true, decide_eq_true_eq] at this
        exact this.2
      have hdigit : 10 * 0 + (c.toNat - 48) ≤ 9 := by omega
      have := Nat.mul_le_mul_right (pow10 cs.length) hdigit
      rw [value, valueAfter_cons, valueAfter_eq, List.length_cons, pow10_succ]
      omega

/-- A number that is written with some digits is not smaller than the least number of so many
digits. -/
theorem pow10_le_of_digits {n : Nat} (hn : n ≠ 0) : pow10 ((digits n).length - 1) ≤ n := by
  fun_induction digits n with
  | case1 n h => exact Nat.pos_of_ne_zero hn
  | case2 n h ih =>
    have hlength : 0 < (digits (n / 10)).length :=
      List.length_pos_iff.mpr (digits_ne_nil (n / 10))
    have := ih (by omega)
    rw [List.length_append, List.length_singleton, Nat.add_sub_cancel,
      show (digits (n / 10)).length = (digits (n / 10)).length - 1 + 1 by omega, pow10_succ]
    omega

/-- A number other than zero is not written with a zero in front. -/
theorem digits_ne_zero_cons {n : Nat} (hn : n ≠ 0) (ds : List Char) : digits n ≠ '0' :: ds := by
  fun_induction digits n generalizing ds with
  | case1 n h =>
    have : ∀ n < 10, n ≠ 0 → digit n ≠ '0' := by decide
    intro heq
    exact this n h hn (List.cons.inj heq).1
  | case2 n h ih =>
    intro heq
    cases hds : digits (n / 10) with
    | nil => exact digits_ne_nil _ hds
    | cons d ds' =>
        rw [hds, List.cons_append] at heq
        have hd := (List.cons.inj heq).1
        exact ih (by omega) ds' (by rw [hds, hd])

end Digits

namespace Decimal

open Digits (digits value)

/-! ## Reading digits -/

theorem isDigit_point : isDigit '.' = false := by decide

/-- A text that begins with a digit has no sign. -/
theorem readSign_of_isDigit {c : Char} (cs : List Char) (h : isDigit c = true) :
    readSign (c :: cs) = (false, c :: cs) := by
  unfold readSign
  split
  case h_1 he =>
    cases he
    exact absurd h (by decide)
  case h_2 he =>
    cases he
    exact absurd h (by decide)
  case h_3 => rfl

theorem readSign_digits {cs : List Char} (hne : cs ≠ []) (h : ∀ c ∈ cs, isDigit c = true)
    (ds : List Char) : readSign (cs ++ ds) = (false, cs ++ ds) := by
  cases cs with
  | nil => exact absurd rfl hne
  | cons c cs => exact readSign_of_isDigit (cs ++ ds) (h c List.mem_cons_self)

/-- A run of digits is a whole number. -/
theorem readInt?_digits {cs : List Char} (hne : cs ≠ []) (h : ∀ c ∈ cs, isDigit c = true) :
    readInt? cs = some (value cs : Int) := by
  have hsign := readSign_digits hne h []
  rw [List.append_nil] at hsign
  have hall : cs.all isDigit = true := List.all_eq_true.mpr h
  have hempty : cs.isEmpty = false := List.isEmpty_eq_false_iff.mpr hne
  simp [readInt?, hsign, hall, hempty]

/-- A point is no part of a whole number. -/
theorem readInt?_point {cs : List Char} (hne : cs ≠ []) (h : ∀ c ∈ cs, isDigit c = true)
    (ds : List Char) : readInt? (cs ++ '.' :: ds) = none := by
  have hall : (cs ++ '.' :: ds).all isDigit = false := by
    rw [List.all_append, List.all_cons, isDigit_point, Bool.false_and, Bool.and_false]
  simp [readInt?, readSign_digits hne h, hall]

/-- A run of digits is a numeral. -/
theorem read?_digits {cs : List Char} (hne : cs ≠ []) (h : ∀ c ∈ cs, isDigit c = true) :
    read? cs = some (false, ⟨value cs, 0⟩) := by
  have hsign := readSign_digits hne h []
  rw [List.append_nil] at hsign
  have htake : cs.takeWhile isDigit = cs := List.takeWhile_eq_self_iff.mpr h
  have hdrop : cs.dropWhile isDigit = [] := List.dropWhile_eq_nil_iff.mpr h
  simp [read?, hsign, htake, hdrop, readFraction, readExponent?, hne]

/-- Digits around a point are a numeral. -/
theorem read?_point {cs ds : List Char} (hne : cs ≠ []) (h : ∀ c ∈ cs, isDigit c = true)
    (h' : ∀ c ∈ ds, isDigit c = true) :
    read? (cs ++ '.' :: ds) = some (false, ⟨value (cs ++ ds), -ds.length⟩) := by
  have htake : (cs ++ '.' :: ds).takeWhile isDigit = cs := by
    rw [List.takeWhile_append_of_pos h, List.takeWhile_cons, isDigit_point]
    exact List.append_nil cs
  have hdrop : (cs ++ '.' :: ds).dropWhile isDigit = '.' :: ds := by
    rw [List.dropWhile_append_of_pos h, List.dropWhile_cons, isDigit_point]
    rfl
  have htake' : ds.takeWhile isDigit = ds := List.takeWhile_eq_self_iff.mpr h'
  have hdrop' : ds.dropWhile isDigit = [] := List.dropWhile_eq_nil_iff.mpr h'
  simp [read?, readSign_digits hne h, htake, hdrop, readFraction, htake', hdrop', readExponent?,
    hne]

/-! ## Reading positional notation -/

/-- The digits of a positional numeral before its point and those after it.  The second are none
exactly where there is no point. -/
def parts (d : Decimal) : List Char × List Char :=
  if 0 ≤ d.exponent then (digits d.coefficient ++ List.replicate d.exponent.toNat '0', [])
  else if d.exponent.natAbs < (digits d.coefficient).length then
    ((digits d.coefficient).take ((digits d.coefficient).length - d.exponent.natAbs),
      (digits d.coefficient).drop ((digits d.coefficient).length - d.exponent.natAbs))
  else
    (['0'], List.replicate (d.exponent.natAbs - (digits d.coefficient).length) '0' ++
      digits d.coefficient)

theorem isDigit_of_mem_zeros {k : Nat} : ∀ c ∈ List.replicate k '0', isDigit c = true := by
  intro c hc
  rw [List.eq_of_mem_replicate hc]
  decide

theorem parts_fst_ne_nil (d : Decimal) : (parts d).1 ≠ [] := by
  unfold parts
  have hds := Digits.digits_ne_nil d.coefficient
  split
  · simp only [ne_eq, List.append_eq_nil_iff, not_and]
    exact fun h => absurd h hds
  · split
    case isTrue hlt =>
      rw [ne_eq, List.take_eq_nil_iff]
      rintro (h0 | h0)
      · omega
      · exact hds h0
    case isFalse => exact List.cons_ne_nil _ _

theorem isDigit_parts_fst (d : Decimal) : ∀ c ∈ (parts d).1, isDigit c = true := by
  unfold parts
  have hds := Digits.all_isDigit_digits d.coefficient
  split
  · intro c hc
    rcases List.mem_append.mp hc with hc | hc
    · exact hds c hc
    · exact isDigit_of_mem_zeros c hc
  · split
    · exact fun c hc => hds c (List.mem_of_mem_take hc)
    · intro c hc
      rw [List.mem_singleton.mp hc]
      decide

theorem isDigit_parts_snd (d : Decimal) : ∀ c ∈ (parts d).2, isDigit c = true := by
  unfold parts
  have hds := Digits.all_isDigit_digits d.coefficient
  split
  · intro c hc
    cases hc
  · split
    · exact fun c hc => hds c (List.mem_of_mem_drop hc)
    · intro c hc
      rcases List.mem_append.mp hc with hc | hc
      · exact isDigit_of_mem_zeros c hc
      · exact hds c hc

theorem positional_of_nonneg {d : Decimal} (h : 0 ≤ d.exponent) :
    d.positional = (parts d).1 := by
  simp only [positional, parts, if_pos h]

theorem positional_of_neg {d : Decimal} (h : d.exponent < 0) :
    d.positional = (parts d).1 ++ '.' :: (parts d).2 := by
  have hneg : ¬ 0 ≤ d.exponent := by omega
  unfold positional parts
  simp only [if_neg hneg]
  split <;> rfl

/-- The digits of a fraction are the coefficient, and as many of them as the exponent says stand
after the point. -/
theorem parts_of_neg {d : Decimal} (h : d.exponent < 0) :
    value ((parts d).1 ++ (parts d).2) = d.coefficient ∧
      (-((parts d).2.length : Int)) = d.exponent := by
  have hneg : ¬ 0 ≤ d.exponent := by omega
  unfold parts
  simp only [if_neg hneg]
  split
  case isTrue hlt =>
    refine ⟨?_, ?_⟩
    · rw [List.take_append_drop, Digits.value_digits]
    · rw [List.length_drop]
      omega
  case isFalse hle =>
    refine ⟨?_, ?_⟩
    · have hzero := Digits.value_zeros_append
        (d.exponent.natAbs - (digits d.coefficient).length + 1) (digits d.coefficient)
      rw [List.replicate_succ, Digits.value_digits] at hzero
      exact hzero
    · rw [List.length_append, List.length_replicate]
      omega

/-- The number a decimal without a fraction stands for. -/
def whole (d : Decimal) : Nat := d.coefficient * pow10 d.exponent.toNat

theorem value_positional {d : Decimal} (h : 0 ≤ d.exponent) : value d.positional = d.whole := by
  rw [positional_of_nonneg h, parts, if_pos h, Digits.value_append_zeros, Digits.value_digits,
    whole]

/-- Positional notation is read back: a fraction as it was, and a whole number as its digits. -/
theorem read?_positional (d : Decimal) :
    read? d.positional = some (false, if 0 ≤ d.exponent then ⟨d.whole, 0⟩ else d) := by
  by_cases h : 0 ≤ d.exponent
  · rw [if_pos h, ← value_positional h, positional_of_nonneg h]
    exact read?_digits (parts_fst_ne_nil d) (isDigit_parts_fst d)
  · have hneg : d.exponent < 0 := by omega
    obtain ⟨hvalue, hlength⟩ := parts_of_neg hneg
    rw [if_neg h, positional_of_neg hneg,
      read?_point (parts_fst_ne_nil d) (isDigit_parts_fst d) (isDigit_parts_snd d), hvalue, hlength]

/-- Positional notation is a whole number exactly if it has no fraction. -/
theorem readInt?_positional (d : Decimal) :
    readInt? d.positional = if 0 ≤ d.exponent then some (d.whole : Int) else none := by
  by_cases h : 0 ≤ d.exponent
  · rw [if_pos h, ← value_positional h, positional_of_nonneg h]
    exact readInt?_digits (parts_fst_ne_nil d) (isDigit_parts_fst d)
  · have hneg : d.exponent < 0 := by omega
    rw [if_neg h, positional_of_neg hneg]
    exact readInt?_point (parts_fst_ne_nil d) (isDigit_parts_fst d) _

/-! ## Reading a minus -/

/-- A minus in front of digits makes the number negative. -/
theorem readInt?_signed (i : Int) : readInt? (Digits.signed i) = some i := by
  have hne := Digits.digits_ne_nil i.natAbs
  have hdigits := Digits.all_isDigit_digits i.natAbs
  rw [Digits.signed]
  split
  next hneg =>
    have hall : (digits i.natAbs).all isDigit = true := List.all_eq_true.mpr hdigits
    have hempty : (digits i.natAbs).isEmpty = false := List.isEmpty_eq_false_iff.mpr hne
    have habs : -(i.natAbs : Int) = i := by omega
    simp only [readInt?, readSign, hall, hempty, Bool.not_false, Bool.and_self, if_true,
      Digits.value_digits, habs]
  next hpos =>
    have habs : (i.natAbs : Int) = i := by omega
    rw [readInt?_digits hne hdigits, Digits.value_digits, habs]

/-- A minus in front of positional notation makes the number negative. -/
theorem read?_minus_positional (d : Decimal) :
    read? ('-' :: d.positional) = (read? d.positional).map fun p => (true, p.2) := by
  have hsign : readSign d.positional = (false, d.positional) := by
    by_cases h : 0 ≤ d.exponent
    · rw [positional_of_nonneg h, ← List.append_nil (parts d).1]
      exact readSign_digits (parts_fst_ne_nil d) (isDigit_parts_fst d) []
    · rw [positional_of_neg (by omega)]
      exact readSign_digits (parts_fst_ne_nil d) (isDigit_parts_fst d) _
  rw [read?, read?, hsign, readSign]
  simp only
  split
  next => rfl
  next => rw [Option.map_map]; rfl

/-- The characters of positional notation are digits and points. -/
theorem mem_positional {d : Decimal} {c : Char} (h : c ∈ d.positional) :
    isDigit c = true ∨ c = '.' := by
  by_cases hd : 0 ≤ d.exponent
  · rw [positional_of_nonneg hd] at h
    exact Or.inl (isDigit_parts_fst d c h)
  · rw [positional_of_neg (by omega), List.mem_append, List.mem_cons] at h
    rcases h with h | h | h
    · exact Or.inl (isDigit_parts_fst d c h)
    · exact Or.inr h
    · exact Or.inl (isDigit_parts_snd d c h)

/-- Positional notation begins with a digit. -/
theorem exists_positional_eq_cons (d : Decimal) :
    ∃ c cs, d.positional = c :: cs ∧ isDigit c = true := by
  have hne := parts_fst_ne_nil d
  have hdigit := isDigit_parts_fst d
  cases hp : (parts d).1 with
  | nil => exact absurd hp hne
  | cons c cs =>
      rw [hp] at hdigit
      refine ⟨c, ?_⟩
      by_cases h : 0 ≤ d.exponent
      · exact ⟨cs, by rw [positional_of_nonneg h, hp], hdigit c List.mem_cons_self⟩
      · exact ⟨cs ++ '.' :: (parts d).2, by rw [positional_of_neg (by omega), hp, List.cons_append],
          hdigit c List.mem_cons_self⟩

/-! ## Rounding a whole number -/

/-- A decimal that is zero, or too great for a double, aside, the zeros behind a whole number make
no difference. -/
theorem rank_whole {d : Decimal} (h : 0 ≤ d.exponent) (hr : d.rank < Binary64.limit) :
    (Decimal.mk d.whole 0).rank = d.rank := by
  unfold rank at hr ⊢
  simp only at hr ⊢
  by_cases h0 : d.coefficient = 0
  · rw [if_pos h0, if_pos (by rw [whole, h0, Nat.zero_mul])]
  · have hw : d.whole ≠ 0 :=
      Nat.ne_of_gt (Nat.mul_pos (Nat.pos_of_ne_zero h0) (pow10_pos _))
    rw [if_neg h0, if_pos h] at hr ⊢
    have hle : ¬ 310 < d.exponent := by
      intro hlt
      rw [if_pos hlt] at hr
      omega
    rw [if_neg hw, if_neg hle, if_pos (Int.le_refl 0), if_neg (by omega)]
    exact congrArg (Binary64.rankOf · 1) (Nat.mul_one d.whole)

/-- A fraction that is not too small is rounded as a quotient by a power of ten. -/
theorem rank_fraction {c k : Nat} (hc : c ≠ 0) (hk : 0 < k) (h : 3 * k ≤ Nat.log2 c + 1080) :
    (Decimal.mk c (-(k : Int))).rank = Binary64.rankOf c (pow10 k) := by
  unfold rank
  simp only
  rw [if_neg hc, if_neg (by omega), Int.natAbs_neg, Int.natAbs_natCast, if_neg (by omega)]

/-- A whole number is rounded as a quotient by one. -/
theorem rank_natural (n : Nat) : (Decimal.mk n 0).rank = Binary64.rankOf n 1 := by
  unfold rank
  by_cases h0 : n = 0
  · subst h0
    rw [if_pos rfl]
    exact (Binary64.rankOf_zero Nat.one_pos).symm
  · simp only
    rw [if_neg h0, if_pos (Int.le_refl 0), if_neg (by omega)]
    exact congrArg (Binary64.rankOf · 1) (Nat.mul_one n)

theorem pow2_mul_three_le (k : Nat) : pow2 (3 * k) ≤ pow10 k := by
  have : pow2 (3 * k) = Nat.pow 8 k := Nat.pow_mul 2 3 k
  rw [this]
  exact Nat.pow_le_pow_left (by decide) k

/-- A whole number that is at most a decimal is not rounded to a greater rank. -/
theorem rankOf_le_rank {m : Nat} {d : Decimal} (hr : d.rank < Binary64.limit)
    (h : m * pow10 (-d.exponent).toNat ≤ d.coefficient * pow10 d.exponent.toNat) :
    Binary64.rankOf m 1 ≤ d.rank := by
  by_cases hm : m = 0
  · have hzero := rank_natural m
    rw [← hzero, hm]
    exact Nat.zero_le _
  have hc : d.coefficient ≠ 0 := by
    intro hc
    rw [hc, Nat.zero_mul] at h
    exact Nat.mul_ne_zero hm (Nat.ne_of_gt (pow10_pos _)) (Nat.le_zero.mp h)
  unfold rank at hr ⊢
  rw [if_neg hc] at hr ⊢
  by_cases hexp : 0 ≤ d.exponent
  · have hone : pow10 (-d.exponent).toNat = 1 := by rw [Int.toNat_eq_zero.mpr (by omega)]; rfl
    rw [if_pos hexp] at hr ⊢
    split at hr
    case isTrue => exact absurd hr (Nat.lt_irrefl _)
    case isFalse hle =>
      rw [if_neg hle]
      rw [hone, Nat.mul_one] at h
      exact Binary64.rankOf_mono h
  · have hone : pow10 d.exponent.toNat = 1 := by rw [Int.toNat_eq_zero.mpr (by omega)]; rfl
    have habs : (-d.exponent).toNat = d.exponent.natAbs := by omega
    rw [hone, Nat.mul_one, habs] at h
    rw [if_neg hexp] at hr ⊢
    -- a decimal that is at least one is not too small to be raised to its power
    have hlog : 3 * d.exponent.natAbs ≤ Nat.log2 d.coefficient := by
      rw [← pow2_le_iff_le_log2 hc]
      exact Nat.le_trans (pow2_mul_three_le _)
        (Nat.le_trans (Nat.le_mul_of_pos_left _ (Nat.pos_of_ne_zero hm)) h)
    rw [if_neg (by omega)]
    exact Binary64.rankOf_le_rankOf Nat.one_pos (pow10_pos _) (by rw [Nat.mul_one]; exact h)

end Decimal

end Rulebook
