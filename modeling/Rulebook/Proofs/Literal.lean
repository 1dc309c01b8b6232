import Rulebook.Proofs.Lexing
import Rulebook.Proofs.Shortest
import Rulebook.Rule.Verdict

/-!
# Literals that are written and read back

A literal is *legible* if the text that a formula writes for it is one lexeme: a text
without a quote, or a number without a minus.  `lexemes?_literalText` says that the
scanner then reads the value `reread`, and `lexemes?_literalText_minus` that it stops at
a minus.

A whole number comes back as it was.  So does a double (`reread_real`), unless it is
whole and lies between `1e15` and `2 ^ 63`: such a double is written without a point and
comes back as a whole number.  No comparison can tell the two apart
(`verdict_reread`), since they are one number and are shown alike.
-/

namespace Rulebook

open Rulebook.Binary64 (shortest)
open Rulebook.Decimal (read? readInt?)
open Rulebook.Formula (literalText)
open Rulebook.Text (isDigit)
open Rulebook.Token (isNumeral)

/-! ## Whole numbers of 64 bits -/

theorem wholeOf?_toInt (i : Int64) : wholeOf? i.toInt = some i := by
  have hle := i.le_toInt
  have hlt := i.toInt_lt
  rw [wholeOf?, if_pos (by omega), Int64.ofInt_toInt]

theorem pow2_63 : pow2 63 = 9223372036854775808 := rfl

theorem wholeOf?_natCast (n : Nat) :
    wholeOf? (n : Int) = if n < pow2 63 then some (Int64.ofInt n) else none := by
  rw [wholeOf?, pow2_63]
  by_cases h : n < 9223372036854775808
  · rw [if_pos h, if_pos (by omega)]
  · rw [if_neg h, if_neg (by omega)]

theorem toInt_ofInt_natCast {n : Nat} (h : n < pow2 63) : (Int64.ofInt n).toInt = n := by
  rw [pow2_63] at h
  exact Int64.toInt_ofInt_of_le (by omega) (by omega)

namespace Value

theorem same_self (v : Value) : v.same v = true := by
  cases v with
  | integer i => exact beq_self_eq_true i
  | real x => exact beq_self_eq_true x.signedRank
  | text s => exact beq_self_eq_true s

/-! ## Reading what was written -/

/-- Whether the text of a literal is one lexeme. -/
def Legible : Value → Prop
  | .text s => '\'' ∉ s.toList
  | .integer i => 0 ≤ i.toInt
  | .real x => x.negative = false

/-- What a legible literal is read back as. -/
def reread : Value → Value
  | .text s => ofLiteral (Text.trimmed s)
  | .integer i => ofLiteral (literalText (.integer i))
  | .real x => ofLiteral (literalText (.real x))

/-- A text that is a whole number in range is one. -/
theorem ofLiteral_whole {raw : String} {n : Int} {i : Int64} (h : readInt? raw.toList = some n)
    (hi : wholeOf? n = some i) : ofLiteral raw = .integer i := by
  have hbind : (readInt? raw.toList).bind wholeOf? = some i := by rw [h]; exact hi
  rw [ofLiteral, hbind]

/-- A numeral that is no whole number in range is the double it is rounded to. -/
theorem ofLiteral_real {raw : String} {d : Decimal} {x : Binary64}
    (hwhole : (readInt? raw.toList).bind wholeOf? = none)
    (hread : read? raw.toList = some (false, d)) (hrank : d.rank = x.rank)
    (hx : x.negative = false) : ofLiteral raw = .real x := by
  obtain ⟨negative, rank, hlt⟩ := x
  subst hx
  subst hrank
  have hreal : realOf? raw.toList = some ⟨false, d.rank, hlt⟩ := by
    rw [realOf?, hread]
    exact dif_pos hlt
  rw [ofLiteral, hwhole, hreal]

theorem reread_integer {i : Int64} (h : 0 ≤ i.toInt) : reread (.integer i) = .integer i := by
  have htext : (literalText (.integer i)).toList = Digits.digits i.toInt.natAbs := by
    rw [literalText, shown, String.toList_ofList, Digits.signed, if_neg (by omega)]
  have hread : readInt? (literalText (.integer i)).toList = some i.toInt := by
    rw [htext, Decimal.readInt?_digits (Digits.digits_ne_nil _) (Digits.all_isDigit_digits _),
      Digits.value_digits, Int.natAbs_of_nonneg h]
  exact ofLiteral_whole hread (wholeOf?_toInt i)

/-- One digit after the point is enough for a whole double. -/
theorem rank_withOneDecimal {x : Binary64} (h : x.isWhole = true) :
    (Decimal.mk (10 * x.truncated) (-(1 : Nat))).rank = x.rank := by
  by_cases h0 : x.truncated = 0
  · have hrank : x.rank = 0 := by
      have hunits := Binary64.units_of_isWhole h
      rw [h0, Nat.zero_mul] at hunits
      exact Decidable.not_not.mp fun hne => Binary64.units_ne_zero hne hunits
    rw [h0, hrank]
    rfl
  · rw [Decimal.rank_fraction (by omega) (by omega) (by omega)]
    refine Binary64.rankOf_of_eq (pow10_pos 1) ?_
    have ten : ∀ n k : Nat, 10 * n * k = n * k * pow10 1 := fun n k => by
      rw [Nat.mul_comm 10, Nat.mul_right_comm]
      rfl
    rw [Binary64.units_of_isWhole h]
    exact ten _ _

/-- A double below `1e15` that is whole has a point in its text, which keeps it a double. -/
theorem reread_withOneDecimal {x : Binary64} (hx : x.negative = false) (h : x.isWhole = true) :
    ofLiteral (String.ofList x.withOneDecimal) = .real x := by
  have htext : x.withOneDecimal = Digits.digits x.truncated ++ '.' :: ['0'] := by
    rw [Binary64.withOneDecimal, Binary64.withSign, hx]
    rfl
  have hne := Digits.digits_ne_nil x.truncated
  have hdigits := Digits.all_isDigit_digits x.truncated
  have hwhole : (readInt? (String.ofList x.withOneDecimal).toList).bind wholeOf? = none := by
    rw [String.toList_ofList, htext, Decimal.readInt?_point hne hdigits]
    rfl
  have hread : read? (String.ofList x.withOneDecimal).toList =
      some (false, ⟨10 * x.truncated, -(1 : Nat)⟩) := by
    have hvalue : Digits.value (Digits.digits x.truncated ++ ['0']) = 10 * x.truncated := by
      have hzero := Digits.value_append_zeros (Digits.digits x.truncated) 1
      rw [Digits.value_digits, Nat.mul_comm] at hzero
      exact hzero
    have hzero : ∀ c ∈ ['0'], isDigit c = true := List.forall_mem_singleton.mpr rfl
    rw [String.toList_ofList, htext, Decimal.read?_point hne hdigits hzero, hvalue]
    rfl
  exact ofLiteral_real hwhole hread (rank_withOneDecimal h) hx

/-- A double in positional notation comes back as a whole number if that notation is one in range,
and else as the double. -/
theorem reread_plain {x : Binary64} (hx : x.negative = false) :
    ofLiteral (String.ofList x.plain) =
      if 0 ≤ (shortest .up x.rank).exponent ∧ (shortest .up x.rank).whole < pow2 63 then
        .integer (Int64.ofInt (shortest .up x.rank).whole)
      else .real x := by
  have htext : (String.ofList x.plain).toList = (shortest .up x.rank).positional := by
    rw [String.toList_ofList, Binary64.plain, Binary64.withSign, hx]
    rfl
  have hint := Decimal.readInt?_positional (shortest .up x.rank)
  have hread := Decimal.read?_positional (shortest .up x.rank)
  have hrank := Binary64.rank_shortest .up x.rank
  rw [← htext] at hint hread
  by_cases hexp : 0 ≤ (shortest .up x.rank).exponent
  · rw [if_pos hexp] at hint hread
    by_cases hlt : (shortest .up x.rank).whole < pow2 63
    · rw [if_pos ⟨hexp, hlt⟩]
      exact ofLiteral_whole hint (by rw [wholeOf?_natCast, if_pos hlt])
    · rw [if_neg fun h => hlt h.2]
      refine ofLiteral_real ?_ hread ?_ hx
      · rw [hint, Option.bind_some, wholeOf?_natCast, if_neg hlt]
      · rw [Decimal.rank_whole hexp (by rw [hrank]; exact x.rank_lt), hrank]
  · rw [if_neg fun h => hexp h.1]
    rw [if_neg hexp] at hint hread
    exact ofLiteral_real (by rw [hint]; rfl) hread hrank hx

/-- A double is read back as the nearest double to its text. -/
theorem realOf?_plain (x : Binary64) : realOf? x.plain = some x := by
  obtain ⟨negative, rank, hlt⟩ := x
  have hread := Decimal.read?_positional (shortest .up rank)
  generalize hd : (if 0 ≤ (shortest .up rank).exponent then
    (⟨(shortest .up rank).whole, 0⟩ : Decimal) else shortest .up rank) = d at hread
  have hrank : d.rank = rank := by
    have hshortest := Binary64.rank_shortest .up rank
    rw [← hd]
    split
    next hexp => rw [Decimal.rank_whole hexp (by rw [hshortest]; exact hlt), hshortest]
    next => exact hshortest
  subst hrank
  have hdouble : d.toBinary64? negative = some ⟨negative, d.rank, hlt⟩ := dif_pos hlt
  rw [realOf?, Binary64.plain, Binary64.withSign]
  cases negative with
  | false =>
    rw [if_neg Bool.false_ne_true, hread]
    exact hdouble
  | true =>
    rw [if_pos rfl, Decimal.read?_minus_positional, hread]
    exact hdouble

/-- What a number is shown as is no text when it is read as a literal. -/
theorem ofLiteral_shown_ne_text {v : Value} (h : v.number? ≠ none) (s : String) :
    ofLiteral v.shown ≠ .text s := by
  intro htext
  rw [ofLiteral] at htext
  cases v with
  | text t => exact h rfl
  | integer i =>
    rw [shown, String.toList_ofList, Decimal.readInt?_signed, Option.bind_some,
      wholeOf?_toInt] at htext
    cases htext
  | real x =>
    rw [shown, String.toList_ofList, realOf?_plain] at htext
    split at htext
    next => cases htext
    next => cases htext

/-- Whether a double is written without a point although it is whole and has 64 bits. -/
def Bare (x : Binary64) : Prop :=
  x.isWhole = true ∧ pow10 15 ≤ x.truncated ∧ x.truncated < pow2 63

/-- A double comes back as it was, unless it is bare. -/
theorem reread_real {x : Binary64} (hx : x.negative = false) (h : ¬ Bare x) :
    reread (.real x) = .real x := by
  rw [reread, literalText]
  by_cases hsmall : x.isWhole = true ∧ x.truncated < pow10 15
  · rw [if_pos (by simpa using hsmall)]
    exact reread_withOneDecimal hx hsmall.1
  · rw [if_neg (by simpa using hsmall), reread_plain hx, if_neg]
    rw [Binary64.written_as_whole_iff]
    rintro ⟨hwhole, hlt⟩
    exact h ⟨hwhole, Nat.le_of_not_lt fun hlt' => hsmall ⟨hwhole, hlt'⟩, hlt⟩

/-- A bare double comes back as a whole number. -/
theorem reread_bare {x : Binary64} (hx : x.negative = false) (h : Bare x) :
    reread (.real x) = .integer (Int64.ofInt (shortest .up x.rank).whole) := by
  obtain ⟨hwhole, hge, hlt⟩ := h
  rw [reread, literalText, if_neg, reread_plain hx,
    if_pos ((Binary64.written_as_whole_iff x).mpr ⟨hwhole, hlt⟩)]
  rw [Bool.and_eq_true, decide_eq_true_eq]
  exact fun h => absurd h.2 (Nat.not_lt.mpr hge)

/-! ## Verdicts -/

/-- The digits of a bare double are those of the whole number. -/
theorem positional_of_bare {x : Binary64} (h : Bare x) :
    (shortest .up x.rank).positional = Digits.digits (shortest .up x.rank).whole := by
  obtain ⟨hwhole, hge, hlt⟩ := h
  have hexp := Binary64.exponent_shortest_nonneg .up hwhole hlt
  have hpos : 0 < (shortest .up x.rank).coefficient := by
    refine Nat.pos_of_ne_zero fun h0 => ?_
    have hrank := Binary64.rank_shortest .up x.rank
    rw [Decimal.rank, if_pos h0] at hrank
    rw [Binary64.truncated, ← hrank, Binary64.units_zero, Nat.zero_div] at hge
    exact absurd hge (Nat.not_le.mpr (pow10_pos 15))
  rw [Decimal.positional_of_nonneg hexp, Decimal.parts, if_pos hexp, Decimal.whole,
    Digits.digits_mul_pow10 hpos]

/-- A whole number that rounds to the rank of a double without a minus is that double. -/
theorem ofInt_natCast {x : Binary64} (hx : x.negative = false) {n : Nat}
    (h : Binary64.rankOf n 1 = x.rank) : Binary64.ofInt n = x := by
  obtain ⟨negative, rank, hfinite⟩ := x
  simp only [Binary64.ofInt, Binary64.ofQuotient, Binary64.mk.injEq, Int.natAbs_natCast] at hx h ⊢
  refine ⟨?_, ?_⟩
  · rw [hx]
    exact decide_eq_false (by omega)
  · rw [h]
    exact Nat.min_eq_left (by omega)

/-- Reading a number back changes neither its value as a double nor how it is shown. -/
theorem number?_reread_real {x : Binary64} (hx : x.negative = false) :
    (reread (.real x)).number? = (Value.real x).number? ∧
      (reread (.real x)).shown = (Value.real x).shown := by
  by_cases h : Bare x
  · rw [reread_bare hx h]
    have hlt := ((Binary64.written_as_whole_iff x).mpr ⟨h.1, h.2.2⟩)
    have hint := toInt_ofInt_natCast hlt.2
    refine ⟨?_, ?_⟩
    · rw [number?, number?, hint, ofInt_natCast hx (Binary64.rankOf_whole_shortest hlt.1)]
    · rw [shown, shown, hint, Digits.signed, if_neg (by omega), Int.natAbs_natCast,
        ← positional_of_bare h, Binary64.plain, Binary64.withSign, hx]
      rfl
  · rw [reread_real hx h]
    exact ⟨rfl, rfl⟩

/-- A comparator sees no more of a literal than its value as a double and how it is shown. -/
theorem verdict_congr (c : Comparator) (actual : Value) {v w : Value}
    (hnumber : v.number? = w.number?) (hshown : v.shown = w.shown) :
    c.verdict actual v = c.verdict actual w := by
  rw [Comparator.verdict, Comparator.verdict, sameText, sameText, hnumber, hshown]

/-! ## Scanning what was written -/

/-- A run of digits and points is scanned as one literal. -/
theorem lexemes?_digits {text : String} {d : Char} {ds : List Char} (cs : List Char)
    (htext : text.toList = d :: ds) (hd : isDigit d = true) (hds : ∀ c ∈ ds, isNumeral c = true)
    (hend : Ends isNumeral cs) :
    lexemes? (text.toList ++ cs) = (lexemes? cs).map (.value (ofLiteral text) :: ·) := by
  have h := lexemes?_numeral cs hd hds hend
  rw [← htext, Token.ofLiteral, String.ofList_toList] at h
  exact h

/-- The text of a number without a minus is a digit and more digits and points. -/
theorem exists_plain_eq_cons {x : Binary64} (hx : x.negative = false) :
    ∃ d ds, (literalText (.real x)).toList = d :: ds ∧ isDigit d = true ∧
      ∀ c ∈ ds, isNumeral c = true := by
  rw [literalText]
  split
  · rw [String.toList_ofList, Binary64.withOneDecimal, Binary64.withSign, hx]
    have hne := Digits.digits_ne_nil x.truncated
    have hdigits := Digits.all_isDigit_digits x.truncated
    cases hcs : Digits.digits x.truncated with
    | nil => exact absurd hcs hne
    | cons d ds =>
        rw [hcs] at hdigits
        refine ⟨d, ds ++ ['.', '0'], rfl, hdigits d List.mem_cons_self, fun c hc => ?_⟩
        obtain hc | hc := List.mem_append.mp hc
        · exact isNumeral_of_isDigit (hdigits c (List.mem_cons_of_mem d hc))
        · obtain rfl | rfl : c = '.' ∨ c = '0' := by simpa using hc
          · rfl
          · rfl
  · rw [String.toList_ofList, Binary64.plain, Binary64.withSign, hx]
    obtain ⟨d, ds, hds, hd⟩ := Decimal.exists_positional_eq_cons (shortest .up x.rank)
    refine ⟨d, ds, hds, hd, fun c hc => ?_⟩
    obtain hc | rfl := Decimal.mem_positional (c := c) (hds ▸ List.mem_cons_of_mem d hc)
    · exact isNumeral_of_isDigit hc
    · rfl

/-- The text of a legible literal is scanned as what it is read back as. -/
theorem lexemes?_literalText {v : Value} {cs : List Char} (h : v.Legible)
    (hend : Ends isNumeral cs) :
    lexemes? ((literalText v).toList ++ cs) = (lexemes? cs).map (.value v.reread :: ·) := by
  cases v with
  | text s =>
      have htext : (literalText (.text s)).toList = '\'' :: (s.toList ++ ['\'']) := by
        rw [literalText, String.toList_append, String.toList_append]
        rfl
      rw [htext, List.cons_append, List.append_assoc, List.singleton_append, lexemes?_quoted cs h]
      rfl
  | integer i =>
      have htext : (literalText (.integer i)).toList = Digits.digits i.toInt.natAbs := by
        rw [literalText, shown, String.toList_ofList, Digits.signed, if_neg (Int.not_lt.mpr h)]
      have hne := Digits.digits_ne_nil i.toInt.natAbs
      have hdigits := Digits.all_isDigit_digits i.toInt.natAbs
      cases hcs : Digits.digits i.toInt.natAbs with
      | nil => exact absurd hcs hne
      | cons d ds =>
          rw [hcs] at htext hdigits
          exact lexemes?_digits cs htext (hdigits d List.mem_cons_self)
            (fun c hc => isNumeral_of_isDigit (hdigits c (List.mem_cons_of_mem d hc))) hend
  | real x =>
      obtain ⟨d, ds, htext, hd, hds⟩ := exists_plain_eq_cons h
      exact lexemes?_digits cs htext hd hds hend

/-- No lexeme begins with a minus, and a number that is not legible does. -/
theorem lexemes?_literalText_minus {v : Value} (cs : List Char) (h : ¬ v.Legible)
    (hv : ∀ s, v ≠ .text s) : lexemes? ((literalText v).toList ++ cs) = none := by
  have minus : ∀ ds : List Char, lexemes? ('-' :: ds) = none := fun ds =>
    lexemes?_stray ds (by decide) (by decide) (by decide) (by decide) (by decide)
  cases v with
  | text s => exact absurd rfl (hv s)
  | integer i =>
      have hneg : i.toInt < 0 := Int.lt_of_not_ge h
      rw [literalText, shown, String.toList_ofList, Digits.signed, if_pos hneg]
      exact minus _
  | real x =>
      have hneg : x.negative = true := Bool.not_eq_false _ ▸ h
      rw [literalText]
      split
      · rw [String.toList_ofList, Binary64.withOneDecimal, Binary64.withSign, hneg]
        exact minus _
      · rw [String.toList_ofList, Binary64.plain, Binary64.withSign, hneg]
        exact minus _

end Value

end Rulebook
