import Mathlib.Algebra.Order.Field.Rat
import Mathlib.Data.Nat.Digits.Lemmas
import Mathlib.Tactic.FieldSimp
import Mathlib.Tactic.NormNum
import Rulebook.Proofs.JsonNumber
import Rulebook.Proofs.LiteralCase

/-!
# Numbers as they are written

A number is written with a sign, digits and an exponent.  `Written.Whole` and `Written.Numeral` are
these parts as data.  Each has the text that it is written as and the number that it is, and neither
is said in terms of a reader: a digit counts by its place, and an exponent raises ten to a power.

The two readers of numerals take exactly these texts and find what they mean
(`Decimal.readInt?_eq_some_iff`, `Decimal.read?_eq_some_iff`).  That a text is written in one way
only need not be proved for that, since a reader gives one answer.
-/

namespace Rulebook

open Rulebook.Decimal (read? readExponent? readFraction readInt? readSign)
open Rulebook.Text (isDigit)

namespace Written

/-! ## Signs and digits -/

/-- What may stand in front of a number. -/
inductive Sign where
  /-- Nothing. -/
  | absent
  /-- A plus, which means nothing. -/
  | plus
  /-- A minus. -/
  | minus
  deriving DecidableEq

namespace Sign

/-- The text of a sign. -/
def text : Sign → List Char
  | .absent => []
  | .plus => ['+']
  | .minus => ['-']

/-- Whether a sign is a minus. -/
def negative : Sign → Bool
  | .minus => true
  | _ => false

/-- What the number behind a sign is multiplied by. -/
def factor : Sign → Int
  | .minus => -1
  | _ => 1

end Sign

/-- The text of digits, most significant first. -/
def digitText (ds : List (Fin 10)) : List Char := ds.map fun d : Fin 10 => Digits.digit d

/-- The number of digits, each of which counts by its place. -/
def digitNumber (ds : List (Fin 10)) : Nat := Nat.ofDigits 10 (ds.reverse.map Fin.val)

/-! ## Numbers -/

/-- A whole number as it is written. -/
structure Whole where
  /-- The sign in front. -/
  sign : Sign
  /-- The digits. -/
  digits : List (Fin 10)
  /-- There is a digit. -/
  digits_ne_nil : digits ≠ []

namespace Whole

/-- The text of a whole number. -/
def text (n : Whole) : List Char := n.sign.text ++ digitText n.digits

/-- The number. -/
def toInt (n : Whole) : Int := n.sign.factor * digitNumber n.digits

end Whole

/-- The letter that an exponent begins with. -/
inductive Mark where
  /-- A small `e`. -/
  | small
  /-- A capital `E`. -/
  | capital

/-- The character of a letter. -/
def Mark.char : Mark → Char
  | .small => 'e'
  | .capital => 'E'

/-- A number as it is written: digits with a point among or around them if there is one, and a power
of ten. -/
structure Numeral where
  /-- The sign in front. -/
  sign : Sign
  /-- The digits before the point. -/
  whole : List (Fin 10)
  /-- The digits behind the point, if there is one. -/
  fraction : Option (List (Fin 10))
  /-- The exponent, if there is one. -/
  exponent : Option (Mark × Whole)
  /-- There is a digit, before the point or behind it. -/
  digits_ne_nil : whole ++ fraction.getD [] ≠ []

/-- The point and the digits behind it. -/
def fractionText : Option (List (Fin 10)) → List Char
  | none => []
  | some ds => '.' :: digitText ds

/-- The exponent and its letter. -/
def exponentText : Option (Mark × Whole) → List Char
  | none => []
  | some (mark, n) => mark.char :: n.text

/-- The number of an exponent, which is zero if there is none. -/
def exponentNumber : Option (Mark × Whole) → Int
  | none => 0
  | some (_, n) => n.toInt

namespace Numeral

/-- The text of a number. -/
def text (n : Numeral) : List Char :=
  n.sign.text ++ (digitText n.whole ++ (fractionText n.fraction ++ exponentText n.exponent))

/-- The digits behind the point. -/
def places (n : Numeral) : List (Fin 10) := n.fraction.getD []

/-- The number. -/
def toRat (n : Numeral) : ℚ :=
  n.sign.factor * (digitNumber n.whole + digitNumber n.places / 10 ^ n.places.length) *
    10 ^ exponentNumber n.exponent

/-- The magnitude as a whole coefficient and a power of ten. -/
def decimal (n : Numeral) : Decimal :=
  ⟨digitNumber (n.whole ++ n.places), exponentNumber n.exponent - n.places.length⟩

end Numeral

/-- A whole number is a number without a point and an exponent. -/
def Whole.numeral (n : Whole) : Numeral :=
  ⟨n.sign, n.digits, none, none, by rw [Option.getD_none, List.append_nil]; exact n.digits_ne_nil⟩

/-! ## Laws of digits -/

theorem isDigit_of_mem_digitText (ds : List (Fin 10)) :
    ∀ c ∈ digitText ds, isDigit c = true := by
  intro c hc
  obtain ⟨d, -, rfl⟩ := List.mem_map.mp hc
  exact Digits.isDigit_digit d.isLt

theorem digitText_ne_nil {ds : List (Fin 10)} (h : ds ≠ []) : digitText ds ≠ [] :=
  mt List.map_eq_nil_iff.mp h

theorem digitText_append (ds es : List (Fin 10)) :
    digitText (ds ++ es) = digitText ds ++ digitText es := List.map_append

theorem isEmpty_digitTexts (ds es : List (Fin 10)) :
    ((digitText ds).isEmpty && (digitText es).isEmpty) = true ↔ ds ++ es = [] := by
  rw [Bool.and_eq_true, List.isEmpty_iff, List.isEmpty_iff, ← List.append_eq_nil_iff,
    ← digitText_append]
  exact List.map_eq_nil_iff

/-- A digit is one of ten. -/
theorem exists_digit {c : Char} (h : isDigit c = true) : ∃ d : Fin 10, Digits.digit d = c := by
  obtain ⟨hle, hge⟩ := isDigit_iff.mp h
  refine ⟨⟨c.toNat - 48, by omega⟩, ?_⟩
  rw [Digits.digit, Nat.add_sub_cancel' hle, Char.ofNat_toNat]

/-- A run of digits is the text of digits. -/
theorem exists_digitText {cs : List Char} (h : ∀ c ∈ cs, isDigit c = true) :
    ∃ ds, cs = digitText ds := by
  induction cs with
  | nil => exact ⟨[], rfl⟩
  | cons c cs ih =>
      obtain ⟨hc, hcs⟩ := List.forall_mem_cons.mp h
      obtain ⟨d, rfl⟩ := exists_digit hc
      obtain ⟨ds, rfl⟩ := ih hcs
      exact ⟨d :: ds, rfl⟩

theorem digitNumber_append (ds es : List (Fin 10)) :
    digitNumber (ds ++ es) = digitNumber ds * 10 ^ es.length + digitNumber es := by
  rw [digitNumber, List.reverse_append, List.map_append, Nat.ofDigits_append, List.length_map,
    List.length_reverse, digitNumber, digitNumber, Nat.add_comm, Nat.mul_comm]

theorem digitNumber_singleton (d : Fin 10) : digitNumber [d] = d := Nat.ofDigits_singleton

/-- The number that is read from digits is the one by their places. -/
theorem value_digitText (ds : List (Fin 10)) : Digits.value (digitText ds) = digitNumber ds := by
  induction ds using List.reverseRecOn with
  | nil => rfl
  | append_singleton ds d ih =>
      have hdigit : Digits.value (digitText [d]) = digitNumber [d] := by
        simp only [digitText, List.map_singleton, Digits.value, Digits.valueAfter_cons,
          Digits.toNat_digit d.isLt, digitNumber_singleton]
        simp [Digits.valueAfter]
      rw [digitText_append, Digits.value_append, Digits.valueAfter_eq, ih, hdigit,
        digitNumber_append]
      rfl

/-! ## Laws of signs -/

/-- Whether a character is a sign. -/
def isSign (c : Char) : Bool := c == '+' || c == '-'

theorem isSign_of_isDigit (c : Char) (h : isDigit c = true) : isSign c = false := by
  cases hc : isSign c with
  | false => rfl
  | true =>
      rw [isSign, Bool.or_eq_true, beq_iff_eq, beq_iff_eq] at hc
      rcases hc with rfl | rfl
      · cases h
      · cases h

/-- A text is what is read of it behind a sign. -/
theorem exists_sign (cs : List Char) : ∃ σ : Sign, cs = σ.text ++ (readSign cs).2 := by
  unfold readSign
  split
  case h_1 => exact ⟨.minus, rfl⟩
  case h_2 => exact ⟨.plus, rfl⟩
  case h_3 => exact ⟨.absent, rfl⟩

/-- A sign is read from a text that goes on with none. -/
theorem readSign_text (σ : Sign) {cs : List Char} (h : Ends isSign cs) :
    readSign (σ.text ++ cs) = (σ.negative, cs) := by
  cases σ with
  | plus => rfl
  | minus => rfl
  | absent =>
      cases cs with
      | nil => rfl
      | cons c cs =>
          have hc : isSign c = false := h c rfl
          rw [isSign, Bool.or_eq_false_iff, beq_eq_false_iff_ne, beq_eq_false_iff_ne] at hc
          exact readSign_cons cs hc.2 hc.1

theorem factor_mul (σ : Sign) (n : Nat) : σ.factor * n = if σ.negative then -(n : Int) else n := by
  cases σ <;> simp [Sign.factor, Sign.negative]

/-- A text that begins with a digit, or with what does not continue digits, begins with no sign. -/
theorem ends_digitText {p : Char → Bool} (hp : ∀ c, isDigit c = true → p c = false)
    {ds : List (Fin 10)} {cs : List Char} (h : ds = [] → Ends p cs) :
    Ends p (digitText ds ++ cs) := by
  cases ds with
  | nil => exact h rfl
  | cons d ds => exact Json.Numeral.ends_cons (hp _ (Digits.isDigit_digit d.isLt))

end Written

/-! ## Reading whole numbers -/

open Written (digitText digitNumber exists_digitText isDigit_of_mem_digitText readSign_text)

theorem Written.Whole.readInt?_text (n : Written.Whole) : readInt? n.text = some n.toInt := by
  have hends : Ends Written.isSign (digitText n.digits) := by
    rw [← List.append_nil (digitText n.digits)]
    exact Written.ends_digitText Written.isSign_of_isDigit fun h => absurd h n.digits_ne_nil
  have hall : (digitText n.digits).all isDigit = true :=
    List.all_eq_true.mpr (isDigit_of_mem_digitText n.digits)
  have hne : (digitText n.digits).isEmpty = false :=
    List.isEmpty_eq_false_iff.mpr (Written.digitText_ne_nil n.digits_ne_nil)
  simp only [readInt?, Written.Whole.text, readSign_text n.sign hends, hall, hne, Bool.not_false,
    Bool.and_self, if_true, Written.value_digitText, Written.Whole.toInt, Written.factor_mul]

theorem Written.exists_whole {cs : List Char} {i : Int} (h : readInt? cs = some i) :
    ∃ n : Written.Whole, cs = n.text := by
  obtain ⟨σ, hcs⟩ := exists_sign cs
  rw [readInt?] at h
  generalize readSign cs = r at h hcs
  obtain ⟨negative, ds⟩ := r
  simp only at h hcs
  split at h
  case isFalse => cases h
  case isTrue hdigits =>
    rw [Bool.and_eq_true, Bool.not_eq_true', List.isEmpty_eq_false_iff, List.all_eq_true] at hdigits
    obtain ⟨digits, rfl⟩ := exists_digitText hdigits.2
    exact ⟨⟨σ, digits, fun hnil => hdigits.1 (by rw [hnil]; rfl)⟩, hcs⟩

/-- The texts of whole numbers are read, and no others. -/
theorem Decimal.readInt?_eq_some_iff {cs : List Char} {i : Int} :
    readInt? cs = some i ↔ ∃ n : Written.Whole, cs = n.text ∧ n.toInt = i := by
  constructor
  · intro h
    obtain ⟨n, rfl⟩ := Written.exists_whole h
    rw [n.readInt?_text, Option.some.injEq] at h
    exact ⟨n, rfl, h⟩
  · rintro ⟨n, rfl, rfl⟩
    exact n.readInt?_text

/-! ## Reading numerals -/

namespace Written

theorem not_isDigit_mark (mark : Mark) : isDigit mark.char = false := by
  cases mark <;> decide

theorem readExponent?_text (e : Option (Mark × Whole)) :
    readExponent? (exponentText e) = some (exponentNumber e) := by
  match e with
  | none => rfl
  | some (mark, n) =>
      have hmark : mark.char = 'e' ∨ mark.char = 'E' := by cases mark <;> simp [Mark.char]
      rw [exponentText, readExponent?, if_pos hmark, n.readInt?_text, exponentNumber]

theorem exists_exponent {cs : List Char} {i : Int} (h : readExponent? cs = some i) :
    ∃ e, cs = exponentText e := by
  cases cs with
  | nil => exact ⟨none, rfl⟩
  | cons c cs =>
      rw [readExponent?] at h
      split at h
      case isFalse => cases h
      case isTrue hc =>
        obtain ⟨n, rfl⟩ := exists_whole h
        rcases hc with rfl | rfl
        · exact ⟨some (.small, n), rfl⟩
        · exact ⟨some (.capital, n), rfl⟩

theorem ends_exponentText (e : Option (Mark × Whole)) : Ends isDigit (exponentText e) := by
  match e with
  | none => exact fun c hc => nomatch hc
  | some (mark, n) => exact Json.Numeral.ends_cons (not_isDigit_mark mark)

theorem ends_fractionText (f : Option (List (Fin 10))) (e : Option (Mark × Whole)) :
    Ends isDigit (fractionText f ++ exponentText e) := by
  cases f with
  | none => exact ends_exponentText e
  | some ds => exact Json.Numeral.ends_cons Decimal.isDigit_point

/-- The digits behind the point are read, up to the exponent. -/
theorem readFraction_text (f : Option (List (Fin 10))) (e : Option (Mark × Whole)) :
    readFraction (fractionText f ++ exponentText e) =
      (digitText (f.getD []), exponentText e) := by
  cases f with
  | some ds =>
      obtain ⟨htake, hdrop⟩ := takeWhile_append_of_ends (isDigit_of_mem_digitText ds)
        (ends_exponentText e)
      rw [fractionText, List.cons_append, readFraction, htake, hdrop]
      rfl
  | none =>
      rcases e with _ | ⟨mark, n⟩
      · rfl
      · have hpoint : mark.char ≠ '.' := by cases mark <;> decide
        exact readFraction_cons _ hpoint

theorem exists_fraction (cs : List Char) : ∃ f : Option (List (Fin 10)),
    (readFraction cs).1 = digitText (f.getD []) ∧ cs = fractionText f ++ (readFraction cs).2 := by
  unfold readFraction
  split
  case h_1 cs =>
      obtain ⟨ds, hds⟩ : ∃ ds, cs.takeWhile isDigit = digitText ds :=
        exists_digitText fun c hc => List.mem_takeWhile_imp hc
      refine ⟨some ds, hds, ?_⟩
      rw [fractionText, ← hds, List.cons_append, List.takeWhile_append_dropWhile]
  case h_2 => exact ⟨none, rfl, rfl⟩

theorem Numeral.ends_sign (n : Numeral) :
    Ends isSign (digitText n.whole ++ (fractionText n.fraction ++ exponentText n.exponent)) := by
  refine ends_digitText isSign_of_isDigit fun hwhole => ?_
  cases hf : n.fraction with
  | some ds => exact Json.Numeral.ends_cons (by decide)
  | none =>
      have hne := n.digits_ne_nil
      rw [hwhole, hf] at hne
      exact absurd rfl hne

theorem Numeral.read?_text (n : Numeral) : read? n.text = some (n.sign.negative, n.decimal) := by
  obtain ⟨htake, hdrop⟩ := takeWhile_append_of_ends (isDigit_of_mem_digitText n.whole)
    (ends_fractionText n.fraction n.exponent)
  have hne : ¬ ((digitText n.whole).isEmpty && (digitText n.places).isEmpty) = true := by
    rw [isEmpty_digitTexts]
    exact n.digits_ne_nil
  have hlength : (digitText n.places).length = n.places.length := List.length_map _
  rw [places] at hne hlength
  simp only [read?, text, readSign_text n.sign n.ends_sign, htake, hdrop,
    readFraction_text, if_neg hne, readExponent?_text, Option.map_some,
    ← digitText_append, value_digitText, hlength, decimal, places]

theorem exists_numeral {cs : List Char} {p : Bool × Decimal} (h : read? cs = some p) :
    ∃ n : Numeral, cs = n.text := by
  obtain ⟨σ, hcs⟩ := exists_sign cs
  rw [read?] at h
  generalize readSign cs = r at h hcs
  obtain ⟨negative, ds⟩ := r
  simp only at h hcs
  obtain ⟨whole, hwhole⟩ : ∃ whole, ds.takeWhile isDigit = digitText whole :=
    exists_digitText fun c hc => List.mem_takeWhile_imp hc
  obtain ⟨f, hfraction, hrest⟩ := exists_fraction (ds.dropWhile isDigit)
  split at h
  case isTrue => cases h
  case isFalse hne =>
    obtain ⟨e, he, -⟩ := Option.map_eq_some_iff.mp h
    obtain ⟨e, hexponent⟩ := exists_exponent he
    rw [hwhole, hfraction, isEmpty_digitTexts] at hne
    refine ⟨⟨σ, whole, f, e, hne⟩, ?_⟩
    rw [hcs, Numeral.text, ← hwhole, ← hexponent, ← hrest, List.takeWhile_append_dropWhile]

end Written

/-- The texts of numbers are read, and no others. -/
theorem Decimal.read?_eq_some_iff {cs : List Char} {negative : Bool} {d : Decimal} :
    read? cs = some (negative, d) ↔
      ∃ n : Written.Numeral, cs = n.text ∧ n.sign.negative = negative ∧ n.decimal = d := by
  constructor
  · intro h
    obtain ⟨n, rfl⟩ := Written.exists_numeral h
    rw [n.read?_text, Option.some.injEq, Prod.mk.injEq] at h
    exact ⟨n, rfl, h⟩
  · rintro ⟨n, rfl, rfl, rfl⟩
    exact n.read?_text

/-! ## Magnitudes -/

/-- The number that a decimal is. -/
def Decimal.toRat (d : Decimal) : ℚ := d.coefficient * 10 ^ d.exponent

namespace Written

/-- A number is what its decimal is, with its sign. -/
theorem Numeral.toRat_eq (n : Numeral) : n.toRat = n.sign.factor * n.decimal.toRat := by
  have hten : (10 : ℚ) ≠ 0 := by norm_num
  rw [toRat, Decimal.toRat, decimal, digitNumber_append, zpow_sub₀ hten, zpow_natCast]
  push_cast
  field_simp

theorem Whole.text_numeral (n : Whole) : n.numeral.text = n.text := by
  rw [Numeral.text, numeral, fractionText, exponentText, List.append_nil, List.append_nil, text]

theorem Whole.toRat_numeral (n : Whole) : n.numeral.toRat = n.toInt := by
  simp only [Numeral.toRat, Numeral.places, numeral, Option.getD_none, List.length_nil,
    exponentNumber, toInt, digitNumber]
  simp

end Written

end Rulebook
