import Rulebook.Proofs.CorrectRounding
import Rulebook.Proofs.EnteredValues

/-!
# What raw texts stand for

A literal is read from a raw text in three steps, and each has a limit: the whole numbers have 64
bits, the doubles are finite, and all else stays a text.  `Value.ofLiteral_exact` says where the
limits are, in terms of the numbers that are written (`Written.Whole`, `Written.Numeral`) and of
correct rounding (`Binary64.Rounds`).

A whole number that is just beyond 64 bits is still a number as it is written, so it becomes the
nearest double, and from `Binary64.overflow` on it stays a text.  The words for infinity and for
what is not a number are no numbers as they are written, so they stay texts too.
-/

namespace Rulebook

open Rulebook.Binary64 (overflow)
open Rulebook.Decimal (readInt?)

namespace Written

/-- Whether a whole number is in the range of 64 bits. -/
def Whole.Fits (n : Whole) : Prop := -2 ^ 63 ≤ n.toInt ∧ n.toInt ≤ 2 ^ 63 - 1

/-- Whether a text is a whole number in the range of 64 bits. -/
def IsWhole (cs : List Char) : Prop := ∃ n : Whole, cs = n.text ∧ n.Fits

/-- Whether a text is a number that is not beyond the doubles. -/
def IsFinite (cs : List Char) : Prop := ∃ n : Numeral, cs = n.text ∧ |n.toRat| < overflow

/-- Whether a double is the one that a number is rounded to. -/
def Numeral.RoundsTo (n : Numeral) (x : Binary64) : Prop :=
  Binary64.Rounds n.sign.negative n.toRat x

/-- A number is what its decimal is, with its sign. -/
theorem Numeral.signed_decimal (n : Numeral) :
    Decimal.signed n.sign.negative n.decimal = n.toRat := by
  rw [n.toRat_eq, Decimal.signed]
  cases n.sign <;> simp [Sign.negative, Sign.factor]

end Written

/-! ## Whole numbers -/

theorem wholeOf?_eq_some_iff {i : Int} {j : Int64} : wholeOf? i = some j ↔ j.toInt = i := by
  constructor
  · intro h
    rw [wholeOf?] at h
    split at h
    case isTrue hrange =>
      cases h
      exact Int64.toInt_ofInt_of_le hrange.1 (by omega)
    case isFalse => cases h
  · rintro rfl
    exact wholeOf?_toInt j

theorem wholeOf?_eq_none_iff {i : Int} : wholeOf? i = none ↔ ¬ (-2 ^ 63 ≤ i ∧ i ≤ 2 ^ 63 - 1) := by
  rw [wholeOf?]
  split
  case isTrue h => exact iff_of_false (Option.some_ne_none _) (not_not.mpr h)
  case isFalse h => exact iff_of_true rfl h

/-- The whole number that is read from a text, if it is in range. -/
theorem wholeOf?_readInt?_eq_some_iff {cs : List Char} {i : Int64} :
    (readInt? cs).bind wholeOf? = some i ↔
      ∃ n : Written.Whole, cs = n.text ∧ n.Fits ∧ i.toInt = n.toInt := by
  rw [Option.bind_eq_some_iff]
  constructor
  · rintro ⟨j, hread, hj⟩
    obtain ⟨n, hcs, rfl⟩ := Decimal.readInt?_eq_some_iff.mp hread
    refine ⟨n, hcs, not_not.mp fun hfits => ?_, wholeOf?_eq_some_iff.mp hj⟩
    rw [wholeOf?_eq_none_iff.mpr hfits] at hj
    cases hj
  · rintro ⟨n, hcs, -, hi⟩
    exact ⟨n.toInt, Decimal.readInt?_eq_some_iff.mpr ⟨n, hcs, rfl⟩, wholeOf?_eq_some_iff.mpr hi⟩

theorem wholeOf?_readInt?_eq_none_iff {cs : List Char} :
    (readInt? cs).bind wholeOf? = none ↔ ¬ Written.IsWhole cs := by
  rw [Option.bind_eq_none_iff]
  constructor
  · rintro h ⟨n, hcs, hfits⟩
    exact wholeOf?_eq_none_iff.mp (h n.toInt (Decimal.readInt?_eq_some_iff.mpr ⟨n, hcs, rfl⟩)) hfits
  · intro h j hread
    obtain ⟨n, hcs, rfl⟩ := Decimal.readInt?_eq_some_iff.mp hread
    exact wholeOf?_eq_none_iff.mpr fun hfits => h ⟨n, hcs, hfits⟩

namespace Value

/-! ## Doubles -/

/-- The double that is read from a text is the one that the number is rounded to. -/
theorem realOf?_eq_some_iff {cs : List Char} {x : Binary64} :
    realOf? cs = some x ↔ ∃ n : Written.Numeral, cs = n.text ∧ n.RoundsTo x := by
  rw [realOf?, Option.bind_eq_some_iff]
  constructor
  · rintro ⟨⟨negative, d⟩, hread, hx⟩
    obtain ⟨n, hcs, rfl, rfl⟩ := Decimal.read?_eq_some_iff.mp hread
    refine ⟨n, hcs, ?_⟩
    rw [Written.Numeral.RoundsTo, ← n.signed_decimal]
    exact Decimal.toBinary64?_eq_some_iff_rounds.mp hx
  · rintro ⟨n, hcs, hx⟩
    refine ⟨(n.sign.negative, n.decimal), Decimal.read?_eq_some_iff.mpr ⟨n, hcs, rfl, rfl⟩, ?_⟩
    rw [Written.Numeral.RoundsTo, ← n.signed_decimal] at hx
    exact Decimal.toBinary64?_eq_some_iff_rounds.mpr hx

/-- A number that is not beyond the doubles is rounded to one. -/
theorem exists_roundsTo {n : Written.Numeral} (h : |n.toRat| < overflow) : ∃ x, n.RoundsTo x := by
  rw [← n.signed_decimal, Decimal.abs_signed] at h
  have hlt := n.decimal.rank_lt_limit_iff.mpr h
  refine ⟨⟨n.sign.negative, n.decimal.rank, hlt⟩, ?_⟩
  rw [Written.Numeral.RoundsTo, ← n.signed_decimal]
  exact Decimal.rounds_rank n.sign.negative hlt

/-- A number that is beyond the doubles is rounded to none. -/
theorem realOf?_text_eq_none {n : Written.Numeral} (h : overflow ≤ |n.toRat|) :
    realOf? n.text = none := by
  rw [← n.signed_decimal] at h
  rw [realOf?, n.read?_text, Option.bind_some, Option.eq_none_iff_forall_ne_some]
  intro x hx
  exact not_lt.mpr h (Decimal.toBinary64?_eq_some_iff_rounds.mp hx).finite

theorem realOf?_eq_none_iff {cs : List Char} : realOf? cs = none ↔ ¬ Written.IsFinite cs := by
  rw [Option.eq_none_iff_forall_ne_some]
  constructor
  · rintro h ⟨n, hcs, hfinite⟩
    obtain ⟨x, hx⟩ := exists_roundsTo hfinite
    exact h x (realOf?_eq_some_iff.mpr ⟨n, hcs, hx⟩)
  · intro h x hx
    obtain ⟨n, hcs, hrounds⟩ := realOf?_eq_some_iff.mp hx
    exact h ⟨n, hcs, hrounds.finite⟩

/-! ## Literals -/

theorem ofLiteral_eq_integer_iff {s : String} {i : Int64} :
    ofLiteral s = .integer i ↔ (readInt? s.toList).bind wholeOf? = some i := by
  rw [ofLiteral]
  cases (readInt? s.toList).bind wholeOf? with
  | some j => simp
  | none => cases realOf? s.toList <;> simp

theorem ofLiteral_eq_real_iff {s : String} {x : Binary64} : ofLiteral s = .real x ↔
    (readInt? s.toList).bind wholeOf? = none ∧ realOf? s.toList = some x := by
  rw [ofLiteral]
  cases (readInt? s.toList).bind wholeOf? with
  | some j => simp
  | none => cases realOf? s.toList <;> simp

theorem ofLiteral_eq_text_iff {s t : String} : ofLiteral s = .text t ↔
    t = s ∧ (readInt? s.toList).bind wholeOf? = none ∧ realOf? s.toList = none := by
  rw [ofLiteral]
  cases (readInt? s.toList).bind wholeOf? with
  | some j => simp
  | none => cases realOf? s.toList <;> simp [eq_comm]

/-- No number is written with an `n`, small or capital. -/
theorem isNumberChar_of_toLower_eq_n {c : Char} (h : c.toLower = 'n') : isNumberChar c = false := by
  have ascii : ∀ n < 128, isNumberChar (Char.ofNat n) = true → (Char.ofNat n).toLower ≠ 'n' := by
    decide +kernel
  refine Bool.eq_false_iff.mpr fun hc => ?_
  have hne := ascii c.toNat (ascii_of_isNumberChar hc)
  rw [Char.ofNat_toNat] at hne
  exact hne hc h

/-- A word with an `n` is no number, whatever the case of its letters. -/
theorem exists_not_isNumberChar_of_same {word name : String}
    (hname : Text.sameIgnoringAsciiCase word name = true)
    (hn : 'n' ∈ name.toList.map Char.toLower) : ∃ c ∈ word.toList, isNumberChar c = false := by
  rw [Text.sameIgnoringAsciiCase, beq_iff_eq] at hname
  rw [← hname] at hn
  obtain ⟨c, hc, hlower⟩ := List.mem_map.mp hn
  exact ⟨c, hc, isNumberChar_of_toLower_eq_n hlower⟩

/-- The words for infinity and for what is not a number have a character that no number is written
with. -/
theorem exists_not_isNumberChar_of_ofWord? {cs : List Char} (h : Double.ofWord? cs ≠ none) :
    ∃ c ∈ cs, isNumberChar c = false := by
  obtain ⟨σ, hcs⟩ := Written.exists_sign cs
  obtain ⟨c, hc, hnot⟩ :
      ∃ c ∈ (String.ofList (Decimal.readSign cs).2).toList, isNumberChar c = false := by
    simp only [Double.ofWord?] at h
    split at h
    case isTrue hinfinite =>
      rcases (Bool.or_eq_true _ _).mp hinfinite with hshort | hlong
      · exact exists_not_isNumberChar_of_same hshort (by decide)
      · exact exists_not_isNumberChar_of_same hlong (by decide)
    case isFalse =>
      split at h
      case isTrue hnan => exact exists_not_isNumberChar_of_same hnan (by decide)
      case isFalse => exact absurd rfl h
  rw [String.toList_ofList] at hc
  exact ⟨c, hcs ▸ List.mem_append_right _ hc, hnot⟩

/-- What a raw text stands for, exactly.  It is a whole number if it is written as one in the range
of 64 bits, whatever its sign and the zeros in front.  Else it is a double if it is written as a
number that is not beyond the doubles, and the double is the nearest one.  Else it is the text as it
was.  So a whole number that is out of range becomes the nearest double, unless it is beyond the
doubles and stays a text, and the words for infinity and for what is not a number stay texts. -/
theorem ofLiteral_exact (s : String) :
    (∀ i, ofLiteral s = .integer i ↔
      ∃ n : Written.Whole, s.toList = n.text ∧ n.Fits ∧ i.toInt = n.toInt) ∧
    (∀ x, ofLiteral s = .real x ↔
      ¬ Written.IsWhole s.toList ∧ ∃ n : Written.Numeral, s.toList = n.text ∧ n.RoundsTo x) ∧
    (∀ t, ofLiteral s = .text t ↔
      t = s ∧ ¬ Written.IsWhole s.toList ∧ ¬ Written.IsFinite s.toList) ∧
    (∀ n : Written.Whole, s.toList = n.text → ¬ n.Fits →
      (|(n.toInt : ℚ)| < overflow →
        ∃ x, ofLiteral s = .real x ∧ Binary64.Rounds n.sign.negative n.toInt x) ∧
      (overflow ≤ |(n.toInt : ℚ)| → ofLiteral s = .text s)) ∧
    (Double.ofWord? s.toList ≠ none → ofLiteral s = .text s) := by
  refine ⟨fun i => ?_, fun x => ?_, fun t => ?_, fun n hs hfits => ?_, fun hword => ?_⟩
  · rw [ofLiteral_eq_integer_iff, wholeOf?_readInt?_eq_some_iff]
  · rw [ofLiteral_eq_real_iff, wholeOf?_readInt?_eq_none_iff, realOf?_eq_some_iff]
  · rw [ofLiteral_eq_text_iff, wholeOf?_readInt?_eq_none_iff, realOf?_eq_none_iff]
  · have hread : (readInt? s.toList).bind wholeOf? = none := by
      rw [hs, n.readInt?_text, Option.bind_some, wholeOf?_eq_none_iff]
      exact hfits
    rw [← n.toRat_numeral]
    constructor
    · intro hfinite
      obtain ⟨x, hx⟩ := exists_roundsTo hfinite
      have hreal := realOf?_eq_some_iff.mpr ⟨n.numeral, n.text_numeral ▸ hs, hx⟩
      exact ⟨x, ofLiteral_eq_real_iff.mpr ⟨hread, hreal⟩, hx⟩
    · intro hbeyond
      rw [← n.text_numeral] at hs
      exact ofLiteral_eq_text_iff.mpr ⟨rfl, hread, hs ▸ realOf?_text_eq_none hbeyond⟩
  · rw [← String.ofList_toList (s := s)]
    exact ofLiteral_of_not_isNumberChar (exists_not_isNumberChar_of_ofWord? hword)

/-- The least whole number with zeros in front, the number below it, a number that is beyond the
doubles, and a word that is no number. -/
theorem ofLiteral_exact_limits :
    ofLiteral "-0009223372036854775808" = .integer Int64.minValue ∧
    (∃ x, ofLiteral "-9223372036854775809" = .real x ∧
      Binary64.Rounds true (-9223372036854775809) x) ∧
    ofLiteral (String.ofList ('1' :: List.replicate 309 '0')) =
      .text (String.ofList ('1' :: List.replicate 309 '0')) ∧
    ofLiteral "-NaN" = .text "-NaN" := by
  refine ⟨?least, ?below, ?beyond, (ofLiteral_exact "-NaN").2.2.2.2 (by decide)⟩
  case least =>
    obtain ⟨n, htext, hint⟩ : ∃ n : Written.Whole,
        "-0009223372036854775808".toList = n.text ∧ n.toInt = -9223372036854775808 :=
      Decimal.readInt?_eq_some_iff.mp (by decide +kernel)
    have hfits : n.Fits := by
      rw [Written.Whole.Fits, hint]
      decide
    exact ((ofLiteral_exact _).1 _).mpr ⟨n, htext, hfits, hint.symm⟩
  case below =>
    obtain ⟨n, htext, hsign, hint⟩ : ∃ n : Written.Whole,
        "-9223372036854775809".toList = n.text ∧ n.sign = .minus ∧
          n.toInt = -9223372036854775809 :=
      ⟨⟨.minus, [9, 2, 2, 3, 3, 7, 2, 0, 3, 6, 8, 5, 4, 7, 7, 5, 8, 0, 9], by decide⟩,
        by decide, rfl, by decide +kernel⟩
    have hfits : ¬ n.Fits := by
      rw [Written.Whole.Fits, hint]
      decide
    have hfinite : |(n.toInt : ℚ)| < overflow := by
      rw [hint, Int.cast_neg, abs_neg]
      exact Binary64.cast_lt_overflow_iff.mpr (by decide +kernel)
    obtain ⟨x, hx, hrounds⟩ := ((ofLiteral_exact _).2.2.2.1 n htext hfits).1 hfinite
    rw [hint, hsign] at hrounds
    exact ⟨x, hx, by exact_mod_cast hrounds⟩
  case beyond =>
    obtain ⟨n, htext, hint⟩ : ∃ n : Written.Whole,
        '1' :: List.replicate 309 '0' = n.text ∧ n.toInt = pow10 309 :=
      Decimal.readInt?_eq_some_iff.mp (by decide +kernel)
    have hfits : ¬ n.Fits := by
      rw [Written.Whole.Fits, hint]
      decide +kernel
    have hbeyond : overflow ≤ |(n.toInt : ℚ)| := by
      rw [hint, Int.cast_natCast, Nat.abs_cast]
      exact Decimal.overflow_le_pow10
    exact ((ofLiteral_exact (String.ofList _)).2.2.2.1 n
      (String.toList_ofList.trans htext) hfits).2 hbeyond

end Value

end Rulebook
