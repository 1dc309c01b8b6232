import Rulebook.Proofs.CanonicalText
import Rulebook.Proofs.JsonText
import Rulebook.Proofs.LeafVerdicts
import Rulebook.Proofs.LiteralCase
import Rulebook.Rule.Json

/-!
# A numeral in a rule and in a record

Digits with at most one point among them may be a literal of a rule and a number of JSON.  Both
sides read the digits alike (`Plain.read?_text`).  A rule rounds the decimal that they make up
once, to the nearest double (`Plain.realOf?_eq_some_iff`), and JSON comes to the magnitude of its
own rounding, except that whole numbers of 64 bits are kept whole (`Plain.exists_number?`).

So `f = w` is true of a record with the number `w` in `f` exactly if the record has the double
nearest to `w` there.  Whole numbers of 64 bits are always met, and so are numerals whose digits
make up less than `2 ^ 53`, with at most 22 of them behind the point, since the reader of JSON
rounds these once.  Beyond that one side may be a place off.  Near the greatest double one side may
even be a text: a literal is no number as soon as the nearest double is infinite, and then it is
not what the number is shown as either.
-/

namespace Rulebook

open Rulebook.Text (isDigit)
open Rulebook.Token (isNumeral)
open Digits (value valueAfter)

/-! ## Plain numbers -/

theorem Decimal.toBinary64?_eq_some_iff {d : Decimal} {negative : Bool} {x : Binary64} :
    d.toBinary64? negative = some x ↔ x.negative = negative ∧ x.rank = d.rank := by
  obtain ⟨negative', rank, hlt⟩ := x
  constructor
  · intro h
    unfold toBinary64? at h
    split at h
    case isTrue =>
      cases h
      exact ⟨rfl, rfl⟩
    case isFalse => cases h
  · rintro ⟨rfl, rfl⟩
    exact dif_pos hlt

/-- A whole number of 64 bits without a sign is rounded to the nearest rank. -/
theorem Binary64.ofInt_of_lt {m : Nat} (h : m < pow2 64) :
    ofInt m = ⟨false, rankOf m 1, Json.Numeral.rankOf_lt_limit h⟩ :=
  Value.ofInt_natCast rfl rfl

namespace Json.Numeral

open Binary64 (rankOf)

variable {n : Numeral}

theorem Plain.decimal_eq (h : n.Plain) :
    n.decimal = ⟨value (n.whole ++ n.fraction.getD []), -((n.fraction.getD []).length : Int)⟩ := by
  rw [decimal, h.exponent, shift, Int.zero_sub]

/-- Only digits without a point are a whole number of a rule. -/
theorem Plain.readInt?_text (h : n.Plain) :
    Decimal.readInt? n.text = if n.fraction.isSome then none else some (value n.whole : Int) := by
  rw [h.text_eq]
  cases n.fraction with
  | none =>
    rw [fractionText, List.append_nil]
    exact Decimal.readInt?_digits h.proper.whole.ne_nil h.proper.whole.isDigit
  | some ds => exact Decimal.readInt?_point h.proper.whole.ne_nil h.proper.whole.isDigit ds

/-- A rule reads the decimal that the digits make up. -/
theorem Plain.read?_text (h : n.Plain) : Decimal.read? n.text = some (false, n.decimal) := by
  rw [h.text_eq, h.decimal_eq]
  cases hf : n.fraction with
  | none =>
    rw [fractionText, List.append_nil, Option.getD_none, List.append_nil]
    exact Decimal.read?_digits h.proper.whole.ne_nil h.proper.whole.isDigit
  | some ds =>
    exact Decimal.read?_point h.proper.whole.ne_nil h.proper.whole.isDigit
      (h.proper.fraction ds hf).isDigit

theorem Plain.realOf?_eq_some_iff (h : n.Plain) {x : Binary64} :
    Value.realOf? n.text = some x ↔ x.negative = false ∧ x.rank = n.decimal.rank := by
  rw [Value.realOf?, h.read?_text]
  exact Decimal.toBinary64?_eq_some_iff

/-- What is kept whole is the number that the digits make up. -/
theorem Plain.integer?_eq_some_iff (h : n.Plain) {i : Int} :
    n.integer? = some i ↔ n.fraction = none ∧ value n.whole < pow2 64 ∧ i = value n.whole := by
  rw [integer?, h.exponent, h.negative]
  cases n.fraction with
  | some ds => simp
  | none =>
    simp only [Option.isSome_none, Bool.or_self, Bool.false_eq_true, if_false, true_and]
    split
    next hlt => simp [hlt, eq_comm]
    next hge => simp [hge]

theorem Plain.rank_of_integer? (h : n.Plain) {i : Int} (hi : n.integer? = some i) :
    n.decimal.rank = rankOf (value n.whole) 1 := by
  obtain ⟨hf, -, -⟩ := h.integer?_eq_some_iff.mp hi
  rw [h.decimal_eq, hf, Option.getD_none, List.append_nil]
  exact Decimal.rank_natural _

/-- The value that a record takes from a number: the nearest double of a number that is kept whole,
and else the one that JSON rounds to. -/
theorem Plain.exists_number? (h : n.Plain) {j : Json} (hj : n.toJson? = some j) :
    ∃ u x, Value.ofJson? j = some u ∧ u.number? = some x ∧ x.negative = false ∧
      x.rank = if n.integer?.isSome then n.decimal.rank else n.magnitude := by
  rw [toJson?] at hj
  cases hi : n.integer? with
  | none =>
    simp only [hi] at hj
    split at hj
    case isFalse => cases hj
    case isTrue hlt =>
      cases hj
      exact ⟨_, _, rfl, rfl, h.negative, rfl⟩
  | some i =>
    simp only [hi, Option.some.injEq] at hj
    subst hj
    have hrank := h.rank_of_integer? hi
    obtain ⟨-, hlt, rfl⟩ := h.integer?_eq_some_iff.mp hi
    rw [hrank, Value.ofJson?, wholeOf?_natCast]
    by_cases h63 : value n.whole < pow2 63
    · rw [if_pos h63]
      refine ⟨_, ⟨false, _, rankOf_lt_limit hlt⟩, rfl, ?_, rfl, rfl⟩
      rw [Value.number?, toInt_ofInt_natCast h63, Binary64.ofInt_of_lt hlt]
    · rw [if_neg h63]
      refine ⟨_, ⟨false, _, rankOf_lt_limit hlt⟩, rfl, ?_, rfl, rfl⟩
      rw [Value.number?, Binary64.ofInt_of_lt hlt]

/-- JSON rounds a number with few digits once. -/
theorem Plain.magnitude_eq_rank (h : n.Plain) (hs : n.decimal.coefficient < pow2 53)
    (he : n.decimal.exponent.natAbs ≤ 22) : n.magnitude = n.decimal.rank := by
  refine Json.Numeral.magnitude_eq_rank ?_ (fun ds hds => ?_) hs he
  · have hle := Digits.le_valueAfter (value n.whole) (n.fraction.getD [])
    rw [← Digits.value_append] at hle
    calc value n.whole ≤ value n.whole * pow10 (n.fraction.getD []).length :=
          Nat.le_mul_of_pos_right _ (pow10_pos _)
      _ ≤ n.decimal.coefficient := hle
      _ < pow2 64 := Nat.lt_trans hs (by decide)
  · rw [h.exponent] at hds
    cases hds

end Json.Numeral

/-! ## The literal -/

open Json.Numeral (Plain)

/-- A rule takes the nearest double for a plain number, if only to compare it with others. -/
theorem Value.number?_ofLiteral {n : Json.Numeral} (h : n.Plain) {w : String}
    (hw : w.toList = n.text) : (ofLiteral w).number? = realOf? w.toList := by
  have hreal (hnone : (Decimal.readInt? w.toList).bind wholeOf? = none) :
      (ofLiteral w).number? = realOf? w.toList := by
    rw [ofLiteral, hnone]
    cases realOf? w.toList <;> rfl
  cases hf : n.fraction with
  | some ds =>
    refine hreal ?_
    rw [hw, h.readInt?_text, hf]
    rfl
  | none =>
    have hint : Decimal.readInt? w.toList = some (value n.whole : Int) := by
      rw [hw, h.readInt?_text, hf]
      rfl
    by_cases h63 : value n.whole < pow2 63
    · have hlt : value n.whole < pow2 64 := Nat.lt_trans h63 (by decide)
      have hinteger := h.integer?_eq_some_iff.mpr ⟨hf, hlt, rfl⟩
      rw [ofLiteral_whole hint (by rw [wholeOf?_natCast, if_pos h63]), number?,
        toInt_ofInt_natCast h63, Binary64.ofInt_of_lt hlt, hw]
      exact (h.realOf?_eq_some_iff.mpr ⟨rfl, (h.rank_of_integer? hinteger).symm⟩).symm
    · refine hreal ?_
      rw [hint, Option.bind_some, wholeOf?_natCast, if_neg h63]

theorem Binary64.order_eq_iff {x y : Binary64} (hx : x.negative = false) (hy : y.negative = false) :
    x.order y = .eq ↔ y = x := by
  obtain ⟨negative, rank, hlt⟩ := x
  obtain ⟨negative', rank', hlt'⟩ := y
  subst hx
  subst hy
  simp only [order, signedRank, Bool.false_eq_true, if_false, mk.injEq, true_and,
    Std.compare_eq_iff_eq]
  omega

/-- A number is equal to a literal exactly if the literal is that number.  A literal that is a text
is not what the number is shown as. -/
theorem Comparator.verdict_eq_ofLiteral {u : Value} {x : Binary64} {s : String}
    (hu : u.number? = some x) (hx : x.negative = false)
    (hs : ∀ y, (Value.ofLiteral s).number? = some y → y.negative = false) :
    Comparator.eq.verdict u (Value.ofLiteral s) =
      .ok (decide ((Value.ofLiteral s).number? = some x)) := by
  cases hy : (Value.ofLiteral s).number? with
  | some y =>
    have horder := Binary64.order_eq_iff hx (hs y hy)
    rw [Comparator.verdict, hu, hy]
    simp only [Comparator.holds, Option.some.injEq, ← horder]
    rfl
  | none =>
    obtain ⟨t, ht⟩ := Value.number?_eq_none_iff.mp hy
    obtain rfl := Value.eq_of_ofLiteral_text ht
    have hne : u.sameText (.text s) = false :=
      Value.not_sameText_number (by rw [hu]; exact Option.some_ne_none x) ht
    rw [Comparator.verdict_of_text _ (.inr hy), ht, hne]
    rfl

/-! ## Reading the numeral -/

/-- The scanner takes a numeral whole, and it begins with a digit. -/
theorem exists_digit_of_tokenize {w : String} {v : Value} (h : tokenize w = .ok [⟨.value v, 0⟩])
    (hw : ∀ c ∈ w.toList, isNumeral c = true) :
    v = Value.ofLiteral w ∧
      ∃ d ds, w.toList = d :: ds ∧ isDigit d = true ∧ ∀ c ∈ ds, isNumeral c = true := by
  have hl := lexemes?_of_tokenize h
  cases htext : w.toList with
  | nil =>
    rw [htext, lexemes?_nil] at hl
    cases hl
  | cons d ds =>
    have hds : ∀ c ∈ ds, isNumeral c = true := fun c hc =>
      hw c (htext ▸ List.mem_cons_of_mem d hc)
    rcases isDigit_or_point_of_isNumeral (hw d (htext ▸ List.mem_cons_self)) with hd | rfl
    · have hnumeral := Value.lexemes?_digits [] htext hd hds (fun c hc => nomatch hc)
      rw [List.append_nil, hl, lexemes?_nil] at hnumeral
      simp only [Option.map_some, Option.some.injEq, List.map_cons, List.cons.injEq,
        Lexeme.value.injEq] at hnumeral
      exact ⟨hnumeral.1, d, ds, rfl, hd, hds⟩
    · rw [htext, lexemes?_stray ds (by decide) (by decide) (by decide) (by decide +kernel)
        (by decide)] at hl
      cases hl

theorem parseRule_equation {w : String} {d : Char} {ds : List Char} (hw : w.toList = d :: ds)
    (hd : isDigit d = true) (hds : ∀ c ∈ ds, isNumeral c = true) :
    parseRule ("f = " ++ w) = .ok (.leaf ⟨"f", .eq, Value.ofLiteral w⟩) := by
  have hword : Text.IsWord ['f'] :=
    ⟨⟨'f', [], rfl, by decide +kernel⟩, List.forall_mem_singleton.mpr (by decide +kernel)⟩
  have hfield : Token.ofWord ['f'] = .field "f" := by decide +kernel
  have hblank : Text.isBlank ' ' = true := by decide
  have hend : Ends Text.isAlphanumeric (' ' :: '=' :: ' ' :: w.toList) :=
    Json.Numeral.ends_cons (by decide +kernel)
  have hnumeral := Value.lexemes?_digits [] hw hd hds (fun c hc => nomatch hc)
  rw [List.append_nil, lexemes?_nil] at hnumeral
  have hl : lexemes? ("f = " ++ w).toList =
      some (Chain.last (.comparison ⟨"f", .eq, Value.ofLiteral w⟩)).lexemes := by
    have htext : ("f = " ++ w).toList = ['f'] ++ ' ' :: '=' :: ' ' :: w.toList := by
      rw [String.toList_append]
      rfl
    rw [htext, lexemes?_word _ hword hend, hfield, lexemes?_blank _ hblank,
      lexemes?_mark _ (show ('=', Lexeme.comparator .eq) ∈ marks by simp [marks]),
      lexemes?_blank _ hblank, hnumeral]
    rfl
  have hnesting :
      (Chain.last (.comparison ⟨"f", .eq, Value.ofLiteral w⟩)).nesting ≤ maxNesting := by
    rw [Chain.nesting_last]
    exact Nat.le_of_ble_eq_true rfl
  rw [parseRule_of_lexemes hl, if_pos hnesting]
  rfl

/-! ## Reading JSON -/

namespace Json

open Reader

theorem isSpace_of_isNumeral {c : Char} (h : isNumeral c = true) : isSpace c = false := by
  rcases isDigit_or_point_of_isNumeral h with h | rfl
  · exact isSpace_of_startsNumber (by rw [startsNumber, h, Bool.or_true])
  · decide

/-- A numeral that is JSON is a plain number. -/
theorem exists_plain_of_parse? {w : String} {d : Char} {ds : List Char} {j : Json}
    (hw : w.toList = d :: ds) (hd : isDigit d = true) (hds : ∀ c ∈ ds, isNumeral c = true)
    (h : parse? w = some j) : ∃ n : Numeral, n.Plain ∧ w.toList = n.text ∧ n.toJson? = some j := by
  have hnumeral : ∀ c ∈ w.toList, isNumeral c = true := by
    rw [hw]
    exact List.forall_mem_cons.mpr ⟨isNumeral_of_isDigit hd, hds⟩
  have hnot {c : Char} (hc : isNumeral c = false) : c ∉ w.toList := fun hmem => by
    rw [hnumeral c hmem] at hc
    cases hc
  rw [parse?, whole_eq] at h
  cases hseen : seen (value false maxNesting w.toList) with
  | error e =>
    rw [hseen] at h
    cases h
  | ok p =>
    obtain ⟨j', rest⟩ := p
    rw [hseen] at h
    simp only at h
    split at h
    case isFalse => cases h
    case isTrue hrest =>
      cases h
      rw [hw, seen_value_number (by rw [startsNumber, hd, Bool.or_true]), ← hw] at hseen
      obtain ⟨n, hread, hvalue⟩ := exists_of_seen_number hseen
      obtain ⟨hplain, htext⟩ := Numeral.plain_of_read? hread (hnot (by decide))
        ⟨hnot (by decide), hnot (by decide)⟩
      refine ⟨n, hplain, ?_, hvalue⟩
      -- nothing but blanks is left, and a numeral has none
      have hnil : rest = [] := by
        cases rest with
        | nil => rfl
        | cons c rest =>
          have hc : isSpace c = false :=
            isSpace_of_isNumeral (hnumeral c (htext ▸ List.mem_append_right _ List.mem_cons_self))
          rw [skipSpace, List.dropWhile_cons_of_neg (by simp [hc])] at hrest
          cases hrest
      rw [htext, hnil, List.append_nil]

/-- An object with a number in its one member. -/
theorem parse?_member {n : Numeral} {j : Json} (h : n.Proper) (hvalue : n.toJson? = some j)
    {key text : String}
    (htext : text.toList = '{' :: (quoted key ++ ':' :: ' ' :: (n.text ++ ['}']))) :
    parse? text = some (.object [(key, j)]) := by
  have hvalue : seen (value false 126 (' ' :: (n.text ++ ['}']))) = .ok (j, ['}']) := by
    have hend : Ends Numeral.goesOn ['}'] := Numeral.ends_cons (by decide)
    have hnumber := seen_value_text 126 h hvalue hend
    rw [value_eq, valueOver] at hnumber ⊢
    rw [seen_token_space _ (by decide), hnumber]
  have hmember : pairs 126 [] key = some (map (fun j => [(key, j)]) (value false 126)) := rfl
  have hmembers := seen_members_brace hmember (seen_map _ hvalue)
  have hobject : seen (value false maxNesting text.toList) = .ok (.object [(key, j)], []) := by
    rw [htext, maxNesting, seen_value_object_succ, seen_object_cons, hmembers]
    rfl
  rw [parse?, whole_eq, hobject]
  rfl

end Json

/-- The record of an object with a number in its one member. -/
theorem Record.ofJsonText_member {n : Json.Numeral} {j : Json} {u : Value} {w : String}
    (h : n.Proper) (hw : w.toList = n.text) (hvalue : n.toJson? = some j)
    (hu : Value.ofJson? j = some u) :
    Record.ofJsonText ("\x7b\"f\": " ++ w ++ "\x7d") = some (.ok (Table.ofList [("f", u)])) := by
  have htext : ("\x7b\"f\": " ++ w ++ "\x7d").toList =
      '{' :: (Json.quoted "f" ++ ':' :: ' ' :: (n.text ++ ['}'])) := by
    rw [String.toList_append, String.toList_append, hw]
    rfl
  have hvalues : Record.valuesOf [("f", j)] = .ok [("f", u)] := by
    simp only [Record.valuesOf, hu]
  have hmembers : Record.ofMembers [("f", j)] = .ok (Table.ofList [("f", u)]) := by
    have hentries : (Table.ofList [("f", j)]).entries = [("f", j)] := rfl
    rw [Record.ofMembers, Record.ofEntries, hentries, hvalues]
  rw [Record.ofJsonText, Json.parse?_member h hvalue htext]
  exact congrArg some hmembers

/-! ## The verdict -/

/-- What the rule says of the record, for a plain number. -/
theorem verdict_equation {n : Json.Numeral} (h : n.Plain) {w : String} (hw : w.toList = n.text)
    {u : Value} {x : Binary64} (hu : u.number? = some x) (hx : x.negative = false) :
    (Formula.leaf ⟨"f", .eq, Value.ofLiteral w⟩).verdict (Table.ofList [("f", u)]) =
      .ok (decide (Value.realOf? w.toList = some x)) := by
  have hliteral := Value.number?_ofLiteral h hw
  rw [Formula.verdict, Comparison.verdict]
  have hget : (Table.ofList [("f", u)] : Record).get? "f" = some u := rfl
  simp only [hget]
  rw [Comparator.verdict_eq_ofLiteral hu hx fun y hy => ?_, hliteral]
  rw [hliteral, hw] at hy
  exact (h.realOf?_eq_some_iff.mp hy).1

/-- A field is equal to the numeral that its record was written with exactly if the record has the
nearest double there.  It has it for every whole number of 64 bits, and for every numeral whose
digits make up less than `2 ^ 53` and stand in no more than 22 places behind the point. -/
theorem verdict_of_numeral {w : String} {v : Value} {j : Json}
    (hread : tokenize w = .ok [⟨.value v, 0⟩]) (hbare : ∀ c ∈ w.toList, isNumeral c = true)
    (hjson : Json.parse? w = some j) :
    ∃ f r x, parseRule ("f = " ++ w) = .ok f ∧
      Record.ofJsonText ("\x7b\"f\": " ++ w ++ "\x7d") = some (.ok r) ∧
      (r.get? "f").bind Value.number? = some x ∧
      f.verdict r = .ok (decide (Value.realOf? w.toList = some x)) ∧
      (∀ i, Decimal.readInt? w.toList = some i → i < pow2 64 → f.verdict r = .ok true) ∧
      (∀ d, Decimal.read? w.toList = some (false, d) → d.coefficient < pow2 53 →
        d.exponent.natAbs ≤ 22 → f.verdict r = .ok true) := by
  obtain ⟨-, d, ds, hw, hd, hds⟩ := exists_digit_of_tokenize hread hbare
  obtain ⟨n, hplain, htext, hvalue⟩ := Json.exists_plain_of_parse? hw hd hds hjson
  obtain ⟨u, x, hu, hx, hpositive, hrank⟩ := hplain.exists_number? hvalue
  have hverdict := verdict_equation hplain htext hx hpositive
  have htrue (h : x.rank = n.decimal.rank) :
      (Formula.leaf ⟨"f", .eq, Value.ofLiteral w⟩).verdict (Table.ofList [("f", u)]) =
        .ok true := by
    rw [hverdict, htext, decide_eq_true (hplain.realOf?_eq_some_iff.mpr ⟨hpositive, h⟩)]
  refine ⟨_, _, x, parseRule_equation hw hd hds,
    Record.ofJsonText_member hplain.proper htext hvalue hu, hx, hverdict, fun i hi hlt => htrue ?_,
    fun d' hd' hs he => htrue ?_⟩
  · rw [htext, hplain.readInt?_text] at hi
    split at hi
    case isTrue => cases hi
    case isFalse hf =>
      cases hi
      have hinteger := hplain.integer?_eq_some_iff.mpr
        ⟨Option.not_isSome_iff_eq_none.mp hf, Int.ofNat_lt.mp hlt, rfl⟩
      rw [hrank, hinteger]
      rfl
  · rw [htext, hplain.read?_text, Option.some.injEq, Prod.mk.injEq] at hd'
    obtain ⟨-, rfl⟩ := hd'
    rw [hrank]
    split
    case isTrue => rfl
    case isFalse => exact hplain.magnitude_eq_rank hs he

/-- A tenth is not a double, but the same one is nearest for both sides. -/
theorem verdict_of_numeral_tenth :
    tokenize "0.1" = .ok [⟨.value (.real (Binary64.ofQuotient false 1 10)), 0⟩] ∧
      (∀ c ∈ "0.1".toList, isNumeral c = true) ∧ (∃ j, Json.parse? "0.1" = some j) ∧
      ∃ f r, parseRule ("f = " ++ "0.1") = .ok f ∧
        Record.ofJsonText ("\x7b\"f\": " ++ "0.1" ++ "\x7d") = some (.ok r) ∧
        f.verdict r = .ok true := by
  have hread : tokenize "0.1" = .ok [⟨.value (.real (Binary64.ofQuotient false 1 10)), 0⟩] := by
    decide +kernel
  have hbare : ∀ c ∈ "0.1".toList, isNumeral c = true := List.all_eq_true.mp (by decide)
  obtain ⟨j, hj⟩ := Option.isSome_iff_exists.mp
    (show (Json.parse? "0.1").isSome = true by decide +kernel)
  have hdecimal : Decimal.read? "0.1".toList = some (false, ⟨1, -1⟩) := by decide +kernel
  obtain ⟨f, r, -, hf, hr, -, -, -, hshort⟩ := verdict_of_numeral hread hbare hj
  exact ⟨hread, hbare, ⟨j, hj⟩, f, r, hf, hr, hshort _ hdecimal (by decide) (by decide)⟩

/-- The greatest double below `2 ^ 53`, written with a point, is the one below it in JSON. -/
theorem not_verdict_of_numeral :
    ¬ ∀ (w : String) (v : Value) (j : Json), tokenize w = .ok [⟨.value v, 0⟩] →
      (∀ c ∈ w.toList, isNumeral c = true) → Json.parse? w = some j →
      ∃ f r, parseRule ("f = " ++ w) = .ok f ∧
        Record.ofJsonText ("\x7b\"f\": " ++ w ++ "\x7d") = some (.ok r) ∧
        f.verdict r = .ok true := by
  have hread : tokenize "9007199254740991.0" =
      .ok [⟨.value (.real (Binary64.ofQuotient false (pow2 53 - 1) 1)), 0⟩] := by
    decide +kernel
  have hbare : ∀ c ∈ "9007199254740991.0".toList, isNumeral c = true :=
    List.all_eq_true.mp (by decide)
  have hjson : (Json.parse? "9007199254740991.0").bind Value.ofJson? =
      some (.real (Binary64.ofQuotient false (pow2 53 - 2) 1)) := by
    decide +kernel
  have hne : Value.realOf? "9007199254740991.0".toList ≠
      some (Binary64.ofQuotient false (pow2 53 - 2) 1) := by
    decide +kernel
  obtain ⟨j, hj, hu⟩ := Option.bind_eq_some_iff.mp hjson
  obtain ⟨-, d, ds, hw, hd, hds⟩ := exists_digit_of_tokenize hread hbare
  obtain ⟨n, hplain, htext, hvalue⟩ := Json.exists_plain_of_parse? hw hd hds hj
  intro hclaim
  obtain ⟨f, r, hf, hr, hverdict⟩ := hclaim _ _ _ hread hbare hj
  rw [parseRule_equation hw hd hds] at hf
  rw [Record.ofJsonText_member hplain.proper htext hvalue hu] at hr
  cases hf
  cases hr
  rw [verdict_equation hplain htext rfl rfl, decide_eq_false hne] at hverdict
  cases hverdict

end Rulebook
