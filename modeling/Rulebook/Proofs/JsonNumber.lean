import Rulebook.Json.Text
import Rulebook.Proofs.Lexing
import Rulebook.Proofs.Numeral

/-!
# Written JSON numbers are read back

`text` writes a JSON number with a small `e` and a sign before the digits of the exponent,
and `read?_text` reads it from the front of any text that does not go on with it.  A whole
number is written in this form, without a fraction and an exponent, and as long as it has
at most 64 bits, with or without sign, it stays the whole number it was
(`toJson?_ofInt`).
-/

namespace Rulebook

open Rulebook.Text (isDigit)
open Digits (digits)

namespace Json.Numeral

/-! ## The text of a number -/

/-- A run of digits. -/
structure IsRun (ds : List Char) : Prop where
  /-- There is a digit. -/
  ne_nil : ds ≠ []
  /-- All characters are digits. -/
  isDigit : ∀ c ∈ ds, isDigit c = true

/-- A number in the form of JSON. -/
structure Proper (n : Numeral) : Prop where
  /-- There are digits before the point. -/
  whole : IsRun n.whole
  /-- No other digit follows a zero in front. -/
  zero : ∀ ds, n.whole = '0' :: ds → ds = []
  /-- There are digits after the point. -/
  fraction : ∀ ds, n.fraction = some ds → IsRun ds
  /-- There are digits in the exponent. -/
  exponent : ∀ negative ds, n.exponent = some (negative, ds) → IsRun ds

/-- The point and the digits after it. -/
def fractionText : Option (List Char) → List Char
  | none => []
  | some ds => '.' :: ds

/-- The exponent with its sign. -/
def exponentText : Option (Bool × List Char) → List Char
  | none => []
  | some (negative, ds) => 'e' :: (if negative then '-' else '+') :: ds

/-- The text of a number. -/
def text (n : Numeral) : List Char :=
  (if n.negative then ['-'] else []) ++
    (n.whole ++ (fractionText n.fraction ++ exponentText n.exponent))

/-- A character that the text of a number may go on with. -/
def goesOn (c : Char) : Bool := isDigit c || c == '.' || c == 'e' || c == 'E'

theorem goesOn_of_isDigit (c : Char) (h : isDigit c = true) : goesOn c = true := by
  rw [goesOn, h, Bool.true_or, Bool.true_or, Bool.true_or]

/-! ## Reading the text -/

theorem ends_cons {p : Char → Bool} {c : Char} {cs : List Char} (h : p c = false) :
    Ends p (c :: cs) := fun d hd => by
  cases hd
  exact h

/-- A text that does not begin with a character of a kind does not begin with one of a kind of
these. -/
theorem ends_mono {p q : Char → Bool} (h : ∀ c, q c = true → p c = true) {cs : List Char}
    (hend : Ends p cs) : Ends q cs := fun c hc => by
  have hp := hend c hc
  exact Bool.eq_false_iff.mpr fun hq => Bool.eq_false_iff.mp hp (h c hq)

theorem readDigits?_append {ds rest : List Char} (h : IsRun ds) (hend : Ends isDigit rest) :
    readDigits? (ds ++ rest) = some (ds, rest) := by
  obtain ⟨htake, hdrop⟩ := takeWhile_append_of_ends h.isDigit hend
  simp only [readDigits?, htake, hdrop, List.isEmpty_eq_false_iff.mpr h.ne_nil,
    Bool.false_eq_true, ↓reduceIte]

theorem readWhole?_append {ds rest : List Char} (h : IsRun ds)
    (hzero : ∀ ds', ds = '0' :: ds' → ds' = []) (hend : Ends isDigit rest) :
    readWhole? (ds ++ rest) = some (ds, rest) := by
  unfold readWhole?
  rw [readDigits?_append h hend]
  split
  case h_1 hds =>
    cases hds
    cases hzero _ rfl
  case h_2 => rfl

theorem readExponent?_append {e : Option (Bool × List Char)} {rest : List Char}
    (h : ∀ negative ds, e = some (negative, ds) → IsRun ds) (hend : Ends goesOn rest) :
    readExponent? (exponentText e ++ rest) = some (e, rest) := by
  match e, h with
  | none, _ =>
      rw [exponentText, List.nil_append]
      cases rest with
      | nil => rfl
      | cons c cs =>
          have hc : ¬ (c = 'e' ∨ c = 'E') := by
            rintro (rfl | rfl)
            · cases hend _ rfl
            · cases hend _ rfl
          rw [readExponent?, if_neg hc]
  | some (negative, ds), h =>
      have hdigits := readDigits?_append (h negative ds rfl) (ends_mono goesOn_of_isDigit hend)
      rw [exponentText, List.cons_append, List.cons_append, readExponent?, if_pos (Or.inl rfl)]
      cases negative
      all_goals
        simp only [Bool.false_eq_true, ↓reduceIte, Decimal.readSign, hdigits, Option.map_some]

theorem readFraction?_append {f : Option (List Char)} {rest : List Char}
    (h : ∀ ds, f = some ds → IsRun ds) (hend : Ends isDigit rest) (hpoint : Ends (· == '.') rest) :
    readFraction? (fractionText f ++ rest) = some (f, rest) := by
  match f, h with
  | none, _ =>
      rw [fractionText, List.nil_append]
      unfold readFraction?
      split
      case h_1 => cases hpoint _ rfl
      case h_2 => rfl
  | some ds, h =>
      rw [fractionText, List.cons_append, readFraction?, readDigits?_append (h ds rfl) hend,
        Option.map_some]

theorem ends_exponentText {p : Char → Bool} {rest : List Char} (e : Option (Bool × List Char))
    (he : p 'e' = false) (hend : Ends p rest) : Ends p (exponentText e ++ rest) := by
  cases e with
  | none => exact hend
  | some e => exact ends_cons he

theorem ends_fractionText {rest : List Char} (f : Option (List Char)) (hend : Ends isDigit rest) :
    Ends isDigit (fractionText f ++ rest) := by
  cases f with
  | none => exact hend
  | some ds => exact ends_cons Decimal.isDigit_point

theorem readMinus_append {cs : List Char} (negative : Bool) (h : Ends (· == '-') cs) :
    readMinus ((if negative then ['-'] else []) ++ cs) = (negative, cs) := by
  cases negative with
  | true => rfl
  | false =>
      rw [if_neg Bool.false_ne_true, List.nil_append]
      unfold readMinus
      split
      case h_1 => cases h _ rfl
      case h_2 => rfl

/-- The text of a number is read back, if the text behind it does not go on with it. -/
theorem read?_text {n : Numeral} (h : n.Proper) {rest : List Char} (hend : Ends goesOn rest) :
    read? (n.text ++ rest) = some (n, rest) := by
  have hdigit : Ends isDigit rest := ends_mono goesOn_of_isDigit hend
  have hpoint : Ends (· == '.') rest := ends_mono (fun c hc => eq_of_beq hc ▸ rfl) hend
  have hminus : Ends (· == '-')
      (n.whole ++ (fractionText n.fraction ++ (exponentText n.exponent ++ rest))) := by
    obtain ⟨c, cs, hcs⟩ := List.exists_cons_of_ne_nil h.whole.ne_nil
    have hc : isDigit c = true := h.whole.isDigit c (hcs ▸ List.mem_cons_self)
    rw [hcs]
    refine ends_cons (beq_eq_false_iff_ne.mpr ?_)
    rintro rfl
    cases hc
  have hexponent : Ends isDigit (exponentText n.exponent ++ rest) :=
    ends_exponentText n.exponent (by decide) hdigit
  simp only [read?, text, List.append_assoc, readMinus_append n.negative hminus,
    readWhole?_append h.whole h.zero (ends_fractionText n.fraction hexponent),
    readFraction?_append h.fraction hexponent
      (ends_exponentText n.exponent (by decide) hpoint),
    readExponent?_append h.exponent hend, Option.bind_eq_bind, Option.bind_some,
    Option.pure_def]

/-! ## What is read was written -/

theorem isRun_of_readDigits? {cs ds rest : List Char} (h : readDigits? cs = some (ds, rest)) :
    IsRun ds ∧ cs = ds ++ rest := by
  simp only [readDigits?] at h
  split at h
  case isTrue => cases h
  case isFalse hne =>
    cases h
    have hnil : cs.takeWhile isDigit ≠ [] := fun hnil => hne (List.isEmpty_iff.mpr hnil)
    exact ⟨⟨hnil, fun c hc => List.mem_takeWhile_imp hc⟩, List.takeWhile_append_dropWhile.symm⟩

theorem isRun_of_readWhole? {cs ds rest : List Char} (h : readWhole? cs = some (ds, rest)) :
    IsRun ds ∧ (∀ ds', ds = '0' :: ds' → ds' = []) ∧ cs = ds ++ rest := by
  unfold readWhole? at h
  split at h
  case h_1 => cases h
  case h_2 hnot =>
    obtain ⟨hrun, hcs⟩ := isRun_of_readDigits? h
    refine ⟨hrun, fun ds' hds => ?_, hcs⟩
    cases ds' with
    | nil => rfl
    | cons d ds' => exact absurd (hds ▸ h) (hnot d ds' rest)

theorem isRun_of_readFraction? {cs rest : List Char} {f : Option (List Char)}
    (h : readFraction? cs = some (f, rest)) :
    (∀ ds, f = some ds → IsRun ds) ∧ cs = fractionText f ++ rest := by
  unfold readFraction? at h
  split at h
  case h_1 =>
    obtain ⟨⟨ds, rest'⟩, hdigits, heq⟩ := Option.map_eq_some_iff.mp h
    cases heq
    obtain ⟨hrun, hcs⟩ := isRun_of_readDigits? hdigits
    refine ⟨fun ds' hds => Option.some.inj hds ▸ hrun, ?_⟩
    rw [hcs, fractionText, List.cons_append]
  case h_2 =>
    cases h
    refine ⟨fun ds hds => ?_, rfl⟩
    cases hds

theorem eq_of_readMinus (cs : List Char) :
    cs = (if (readMinus cs).1 then ['-'] else []) ++ (readMinus cs).2 := by
  unfold readMinus
  split
  case h_1 => rfl
  case h_2 => rfl

/-- The sign, the digits and the fraction that are read stand in front of the exponent. -/
theorem exists_of_read? {cs rest : List Char} {n : Numeral} (h : read? cs = some (n, rest)) :
    IsRun n.whole ∧ (∀ ds, n.whole = '0' :: ds → ds = []) ∧
      (∀ ds, n.fraction = some ds → IsRun ds) ∧
      ∃ behind, readExponent? behind = some (n.exponent, rest) ∧
        cs = (if n.negative then ['-'] else []) ++
          (n.whole ++ (fractionText n.fraction ++ behind)) := by
  simp only [read?, Option.bind_eq_bind, Option.pure_def, Option.bind_eq_some_iff,
    Option.some.injEq] at h
  obtain ⟨⟨whole, cs₁⟩, hwhole, ⟨fraction, behind⟩, hfraction, ⟨exponent, cs₃⟩, hexp, heq⟩ := h
  cases heq
  obtain ⟨hrun, hzero, hcs⟩ := isRun_of_readWhole? hwhole
  obtain ⟨hruns, hcs₁⟩ := isRun_of_readFraction? hfraction
  simp only at hcs₁
  refine ⟨hrun, hzero, hruns, behind, hexp, ?_⟩
  rw [← hcs₁, ← hcs]
  exact eq_of_readMinus cs

/-- A number without a minus and an exponent. -/
structure Plain (n : Numeral) : Prop where
  /-- The form is that of JSON. -/
  proper : n.Proper
  /-- There is no minus. -/
  negative : n.negative = false
  /-- There is no exponent. -/
  exponent : n.exponent = none

theorem Plain.text_eq {n : Numeral} (h : n.Plain) :
    n.text = n.whole ++ fractionText n.fraction := by
  rw [text, h.negative, h.exponent, exponentText, if_neg Bool.false_ne_true, List.append_nil,
    List.nil_append]

/-- A number that is read from a text without the signs of others is plain. -/
theorem plain_of_read? {cs rest : List Char} {n : Numeral} (h : read? cs = some (n, rest))
    (hminus : '-' ∉ cs) (hexponent : 'e' ∉ cs ∧ 'E' ∉ cs) : n.Plain ∧ cs = n.text ++ rest := by
  obtain ⟨hrun, hzero, hruns, behind, hbehind, hcs⟩ := exists_of_read? h
  have hnegative : n.negative = false := by
    by_contra hneg
    rw [Bool.not_eq_false] at hneg
    rw [hneg, if_pos rfl] at hcs
    exact hminus (hcs ▸ List.mem_cons_self)
  have hmem : ∀ c ∈ behind, c ∈ cs := fun c hc => by
    rw [hcs]
    exact List.mem_append_right _ (List.mem_append_right _ (List.mem_append_right _ hc))
  have hnone : n.exponent = none ∧ behind = rest := by
    cases behind with
    | nil =>
      rw [readExponent?, Option.some.injEq, Prod.mk.injEq] at hbehind
      exact ⟨hbehind.1.symm, hbehind.2⟩
    | cons c behind =>
      have hc : ¬ (c = 'e' ∨ c = 'E') := by
        rintro (rfl | rfl)
        · exact hexponent.1 (hmem _ List.mem_cons_self)
        · exact hexponent.2 (hmem _ List.mem_cons_self)
      rw [readExponent?, if_neg hc, Option.some.injEq, Prod.mk.injEq] at hbehind
      exact ⟨hbehind.1.symm, hbehind.2⟩
  have hproper : n.Proper := ⟨hrun, hzero, hruns, fun _ _ he => by
    rw [hnone.1] at he
    cases he⟩
  have hplain : n.Plain := ⟨hproper, hnegative, hnone.1⟩
  refine ⟨hplain, ?_⟩
  rw [hnegative, if_neg Bool.false_ne_true, List.nil_append, hnone.2] at hcs
  rw [hplain.text_eq, List.append_assoc, hcs]

/-! ## Whole numbers -/

theorem isRun_digits (n : Nat) : IsRun (digits n) :=
  ⟨Digits.digits_ne_nil n, Digits.all_isDigit_digits n⟩

/-- The form of a whole number. -/
def ofInt (i : Int) : Numeral := ⟨decide (i < 0), digits i.natAbs, none, none⟩

theorem text_ofInt (i : Int) : (ofInt i).text = Digits.signed i := by
  simp only [text, ofInt, fractionText, exponentText, List.append_nil, decide_eq_true_eq]
  unfold Digits.signed
  split <;> rfl

theorem proper_ofInt (i : Int) : (ofInt i).Proper where
  whole := isRun_digits _
  zero ds hds := by
    change digits i.natAbs = '0' :: ds at hds
    by_cases h : i.natAbs = 0
    · have hzero : digits 0 = ['0'] := by decide +kernel
      rw [h, hzero] at hds
      exact (List.cons.inj hds).2.symm
    · exact absurd hds (Digits.digits_ne_zero_cons h ds)
  fraction _ h := nomatch h
  exponent _ _ h := nomatch h

/-- A whole number of 64 bits, with or without sign, stays whole. -/
theorem toJson?_ofInt {i : Int} (h : -pow2 63 ≤ i) (h' : i < pow2 64) :
    (ofInt i).toJson? = some (.integer i) := by
  have hinteger : (ofInt i).integer? = some i := by
    unfold integer?
    simp only [ofInt, Option.isSome_none, Bool.or_self, Bool.false_eq_true, ↓reduceIte,
      Digits.value_digits, decide_eq_true_eq]
    by_cases hi : i < 0
    · rw [if_pos hi, if_pos (by omega)]
      exact congrArg some (by omega)
    · rw [if_neg hi, if_pos (by omega)]
      exact congrArg some (by omega)
  rw [toJson?, hinteger]

end Json.Numeral

end Rulebook
