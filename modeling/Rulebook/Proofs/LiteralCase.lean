import Rulebook.Proofs.Collapse
import Rulebook.Proofs.Literal
import Rulebook.Proofs.LowerContext

/-!
# Literals in clean form

Cleaning lower-cases a literal and puts single spaces into it.  A numeral is written with
few characters (`isNumberChar_of_read?`), none of which is a blank, and the one letter
among them may have either case.  So cleaning keeps every number, and it makes no number
of a text (`ofLiteral_clean`).
-/

namespace Rulebook

open Rulebook.Decimal (read? readExponent? readFraction readInt? readSign)
open Rulebook.Text (collapse isAlphabetic isBlank isDigit lowerBetween lowerChar lowerWithin squeeze
  trim)

/-! ## The characters of numerals -/

/-- Whether a character may stand in a numeral with a sign and an exponent. -/
def isNumberChar (c : Char) : Bool := isDigit c || ['+', '-', '.', 'e', 'E'].contains c

theorem isNumberChar_of_isDigit {c : Char} (h : isDigit c = true) : isNumberChar c = true := by
  rw [isNumberChar, h, Bool.true_or]

/-- What stands before the digits is a sign. -/
theorem isNumberChar_of_readSign {c : Char} {cs : List Char} (h : c ∈ cs)
    (hrest : c ∈ (readSign cs).2 → isNumberChar c = true) : isNumberChar c = true := by
  unfold readSign at hrest
  split at hrest
  case h_1 =>
    obtain rfl | h := List.mem_cons.mp h
    · rfl
    · exact hrest h
  case h_2 =>
    obtain rfl | h := List.mem_cons.mp h
    · rfl
    · exact hrest h
  case h_3 => exact hrest h

theorem isNumberChar_of_readInt? {cs : List Char} {i : Int} (h : readInt? cs = some i) :
    ∀ c ∈ cs, isNumberChar c = true := by
  intro c hc
  rw [readInt?] at h
  refine isNumberChar_of_readSign hc fun hrest => ?_
  simp only at h
  split at h
  case isTrue hdigits =>
    rw [Bool.and_eq_true, List.all_eq_true] at hdigits
    exact isNumberChar_of_isDigit (hdigits.2 c hrest)
  case isFalse => cases h

theorem isNumberChar_of_readExponent? {cs : List Char} {i : Int} (h : readExponent? cs = some i) :
    ∀ c ∈ cs, isNumberChar c = true := by
  cases cs with
  | nil => exact fun c hc => absurd hc List.not_mem_nil
  | cons d cs =>
      rw [readExponent?] at h
      split at h
      case isTrue hd =>
        refine List.forall_mem_cons.mpr ⟨?_, isNumberChar_of_readInt? h⟩
        obtain rfl | rfl := hd
        · rfl
        · rfl
      case isFalse => cases h

theorem isNumberChar_of_readFraction {c : Char} {cs : List Char} (h : c ∈ cs)
    (hrest : c ∈ (readFraction cs).2 → isNumberChar c = true) : isNumberChar c = true := by
  unfold readFraction at hrest
  split at hrest
  case h_1 cs =>
    obtain rfl | h := List.mem_cons.mp h
    · rfl
    · rw [← List.takeWhile_append_dropWhile (p := isDigit) (l := cs)] at h
      obtain h | h := List.mem_append.mp h
      · exact isNumberChar_of_isDigit (List.mem_takeWhile_imp h)
      · exact hrest h
  case h_2 => exact hrest h

/-- A numeral is written with the characters of numerals. -/
theorem isNumberChar_of_read? {cs : List Char} {d : Bool × Decimal} (h : read? cs = some d) :
    ∀ c ∈ cs, isNumberChar c = true := by
  intro c hc
  rw [read?] at h
  refine isNumberChar_of_readSign hc fun hrest => ?_
  simp only at h
  split at h
  case isTrue => cases h
  case isFalse =>
    obtain ⟨e, he, -⟩ := Option.map_eq_some_iff.mp h
    rw [← List.takeWhile_append_dropWhile (p := isDigit) (l := (readSign cs).2)] at hrest
    obtain hrest | hrest := List.mem_append.mp hrest
    · exact isNumberChar_of_isDigit (List.mem_takeWhile_imp hrest)
    · exact isNumberChar_of_readFraction hrest fun hexp => isNumberChar_of_readExponent? he c hexp

/-! ## Lower case -/

theorem lowerChar_eq_minus {c : Char} : lowerChar c = '-' ↔ c = '-' :=
  Text.lowerChar_eq_iff (by decide)

theorem lowerChar_eq_plus {c : Char} : lowerChar c = '+' ↔ c = '+' :=
  Text.lowerChar_eq_iff (by decide)

theorem lowerChar_eq_point {c : Char} : lowerChar c = '.' ↔ c = '.' :=
  Text.lowerChar_eq_iff (by decide)

theorem lowerChar_of_isDigit {c : Char} (h : isDigit c = true) : lowerChar c = c :=
  (Text.lowerChar_eq_iff (not_isAlphabetic_of_isDigit h)).mpr rfl

theorem isDigit_lowerChar (c : Char) : isDigit (lowerChar c) = isDigit c := by
  rw [Bool.eq_iff_iff]
  constructor
  · intro h
    rw [← (Text.lowerChar_eq_iff (not_isAlphabetic_of_isDigit h)).mp rfl] at h
    exact h
  · intro h
    rw [lowerChar_of_isDigit h]
    exact h

/-- The mark of an exponent stays one, and nothing else becomes one. -/
theorem lowerChar_eq_exponent {c : Char} :
    (lowerChar c = 'e' ∨ lowerChar c = 'E') ↔ (c = 'e' ∨ c = 'E') := by
  have key : ∀ d : Char, (d = 'e' ∨ d = 'E') ↔ d.toLower = 'e' := by
    intro d
    by_cases hd : d.toNat < 128
    · have table : ∀ n < 128, (Char.ofNat n = 'e' ∨ Char.ofNat n = 'E') ↔
          (Char.ofNat n).toLower = 'e' := by decide +kernel
      have h := table d.toNat hd
      rwa [Char.ofNat_toNat] at h
    · rw [Text.toLower_of_not_ascii (Nat.le_of_not_lt hd)]
      refine ⟨?_, Or.inl⟩
      rintro (h | rfl)
      · exact h
      · exact absurd (by decide) hd
  rw [key, key]
  exact Text.toLower_lowerChar (by decide) (by decide)

theorem map_lowerChar_of_isDigit {cs : List Char} (h : ∀ c ∈ cs, isDigit c = true) :
    cs.map lowerChar = cs := by
  have hmap : cs.map lowerChar = cs.map id :=
    List.map_congr_left fun c hc => lowerChar_of_isDigit (h c hc)
  rw [hmap, List.map_id]

/-- Digits stand in the same places of a text in lower case. -/
theorem digits_map_lowerChar (cs : List Char) :
    (cs.map lowerChar).takeWhile isDigit = cs.takeWhile isDigit ∧
      (cs.map lowerChar).dropWhile isDigit = (cs.dropWhile isDigit).map lowerChar := by
  have hp : isDigit ∘ lowerChar = isDigit := funext isDigit_lowerChar
  rw [List.takeWhile_map, List.dropWhile_map, hp]
  exact ⟨map_lowerChar_of_isDigit fun c hc => List.mem_takeWhile_imp hc, rfl⟩

theorem readSign_cons {c : Char} (cs : List Char) (hminus : c ≠ '-') (hplus : c ≠ '+') :
    readSign (c :: cs) = (false, c :: cs) := by
  unfold readSign
  split
  case h_1 heq => exact absurd (List.cons.inj heq).1 hminus
  case h_2 heq => exact absurd (List.cons.inj heq).1 hplus
  case h_3 => rfl

theorem readSign_map_lowerChar (cs : List Char) :
    readSign (cs.map lowerChar) = ((readSign cs).1, (readSign cs).2.map lowerChar) := by
  cases cs with
  | nil => rfl
  | cons c cs =>
      rw [List.map_cons]
      by_cases hminus : c = '-'
      · rw [hminus, lowerChar_eq_minus.mpr rfl]
        rfl
      · by_cases hplus : c = '+'
        · rw [hplus, lowerChar_eq_plus.mpr rfl]
          rfl
        · rw [readSign_cons cs hminus hplus, readSign_cons _ (mt lowerChar_eq_minus.mp hminus)
            (mt lowerChar_eq_plus.mp hplus)]
          rfl

theorem readInt?_map_lowerChar (cs : List Char) : readInt? (cs.map lowerChar) = readInt? cs := by
  have hall : ∀ ds : List Char, (ds.map lowerChar).all isDigit = ds.all isDigit := fun ds => by
    rw [List.all_map, show isDigit ∘ lowerChar = isDigit from funext isDigit_lowerChar]
  rw [readInt?, readInt?, readSign_map_lowerChar]
  simp only [List.isEmpty_map, hall]
  split
  case isTrue hdigits =>
    rw [Bool.and_eq_true, List.all_eq_true] at hdigits
    rw [map_lowerChar_of_isDigit hdigits.2]
  case isFalse => rfl

theorem readExponent?_map_lowerChar (cs : List Char) :
    readExponent? (cs.map lowerChar) = readExponent? cs := by
  cases cs with
  | nil => rfl
  | cons c cs =>
      rw [List.map_cons, readExponent?, readExponent?, readInt?_map_lowerChar]
      simp only [lowerChar_eq_exponent]

theorem readFraction_cons {c : Char} (cs : List Char) (hpoint : c ≠ '.') :
    readFraction (c :: cs) = ([], c :: cs) := by
  unfold readFraction
  split
  case h_1 heq => exact absurd (List.cons.inj heq).1 hpoint
  case h_2 => rfl

theorem readFraction_map_lowerChar (cs : List Char) :
    readFraction (cs.map lowerChar) = ((readFraction cs).1, (readFraction cs).2.map lowerChar) := by
  cases cs with
  | nil => rfl
  | cons c cs =>
      rw [List.map_cons]
      by_cases hpoint : c = '.'
      · rw [hpoint, lowerChar_eq_point.mpr rfl, readFraction, (digits_map_lowerChar cs).1,
          (digits_map_lowerChar cs).2]
        rfl
      · rw [readFraction_cons cs hpoint, readFraction_cons _ (mt lowerChar_eq_point.mp hpoint)]
        rfl

/-- A numeral is read in lower case as it was. -/
theorem read?_map_lowerChar (cs : List Char) : read? (cs.map lowerChar) = read? cs := by
  rw [read?, read?, readSign_map_lowerChar]
  simp only [digits_map_lowerChar, readFraction_map_lowerChar, readExponent?_map_lowerChar]

/-! ## Clean literals -/

theorem ascii_of_isNumberChar {c : Char} (h : isNumberChar c = true) : c.toNat < 128 := by
  rw [isNumberChar, Bool.or_eq_true, List.contains_iff_mem] at h
  obtain h | h := h
  · exact Nat.lt_of_le_of_lt (isDigit_iff.mp h).2 (by decide)
  · have table : (['+', '-', '.', 'e', 'E'].all fun c => decide (c.toNat < 128)) = true := by decide
    exact of_decide_eq_true (List.all_eq_true.mp table c h)

theorem not_isBlank_of_isNumberChar {c : Char} (h : isNumberChar c = true) : isBlank c = false := by
  rw [isNumberChar, Bool.or_eq_true, List.contains_iff_mem] at h
  obtain h | h := h
  · exact not_isBlank_of_isDigit h
  · have table : (['+', '-', '.', 'e', 'E'].all fun c => !isBlank c) = true := by decide
    have hc := List.all_eq_true.mp table c h
    rwa [Bool.not_eq_true'] at hc

/-- The characters of numerals have no other forms in lower case than their own. -/
theorem isNumberChar_lowerChar {c : Char} (h : isNumberChar (lowerChar c) = true) :
    isNumberChar c = true := by
  rw [isNumberChar, isDigit_lowerChar, Bool.or_eq_true, List.contains_iff_mem] at h
  rw [isNumberChar, Bool.or_eq_true, List.contains_iff_mem]
  refine h.imp_right fun h => ?_
  simp only [List.mem_cons, List.not_mem_nil, or_false, lowerChar_eq_plus, lowerChar_eq_minus,
    lowerChar_eq_point, lowerChar_eq_exponent] at h ⊢
  exact h

theorem not_isNumberChar_of_mem_lowerBetween {c : Char} (hc : isNumberChar c = false)
    (before after : List Char) : ∃ d ∈ lowerBetween before c after, isNumberChar d = false := by
  obtain ⟨-, heq | heq⟩ | ⟨-, heq⟩ | ⟨-, heq⟩ := Text.lowerBetween_cases before c after
  · exact ⟨'σ', by rw [heq]; exact List.mem_cons_self, by decide⟩
  · exact ⟨'ς', by rw [heq]; exact List.mem_cons_self, by decide⟩
  · exact ⟨'i', by rw [heq]; exact List.mem_cons_self, by decide⟩
  · refine ⟨lowerChar c, by rw [heq]; exact List.mem_cons_self, ?_⟩
    rw [Bool.eq_false_iff] at hc ⊢
    exact mt isNumberChar_lowerChar hc

/-- A trimmed text that has a character beside those of numerals has one in its clean form. -/
theorem exists_not_isNumberChar {t : List Char} (htrim : trim t = t) {c : Char} (hc : c ∈ t)
    (hnot : isNumberChar c = false) (before after : List Char) :
    ∃ d ∈ collapse (lowerWithin before t after), isNumberChar d = false := by
  cases hblank : isBlank c with
  | false =>
      obtain ⟨before', after', hsub⟩ := Text.exists_lowerBetween_subset before after hc
      obtain ⟨d, hd, hd'⟩ := not_isNumberChar_of_mem_lowerBetween hnot before' after'
      have hblank' := Text.not_isBlank_of_mem_lowerBetween hblank hd
      exact ⟨d, (Text.mem_collapse hblank' _).mpr (hsub d hd), hd'⟩
  | true =>
      -- the blank stands between others, so a space is left of it
      have hblack : ∀ {cs : List Char} (b a : List Char), (∃ d ∈ cs, isBlank d = false) →
          ∃ d ∈ lowerWithin b cs a, isBlank d = false := by
        rintro cs b a ⟨d, hd, hd'⟩
        obtain ⟨b', a', hsub⟩ := Text.exists_lowerBetween_subset b a hd
        obtain ⟨x, hx⟩ := List.exists_mem_of_ne_nil _ (Text.lowerBetween_ne_nil b' d a')
        exact ⟨x, hsub x hx, Text.not_isBlank_of_mem_lowerBetween hd' hx⟩
      obtain ⟨x, y, rfl⟩ := List.append_of_mem hc
      have hends := Text.ends_of_trim (x ++ c :: y)
      rw [htrim] at hends
      have hx : ∃ d ∈ x, isBlank d = false := by
        cases x with
        | nil =>
            rw [hends.1 c rfl] at hblank
            cases hblank
        | cons d x => exact ⟨d, List.mem_cons_self, hends.1 d rfl⟩
      have hy : ∃ d ∈ y, isBlank d = false := by
        cases y with
        | nil =>
            rw [hends.2 c (by simp)] at hblank
            cases hblank
        | cons d y =>
            have hlast := hends.2 ((d :: y).getLast (List.cons_ne_nil d y))
            rw [List.getLast?_append_cons, List.getLast?_cons_cons] at hlast
            exact ⟨_, List.getLast_mem _, hlast (List.getLast_mem_getLast? _)⟩
      rw [Text.lowerWithin_append, lowerWithin,
        (Text.mark_of_isBlank hblank).settled.lowerBetween_eq, List.singleton_append]
      exact ⟨' ', Text.space_mem_collapse hblank (hblack _ _ hx) (hblack _ _ hy), by decide⟩

namespace Value

/-- A literal whose text, if it is one, is another. -/
def withText (s : String) : Value → Value
  | .text _ => .text s
  | v => v

/-- A text with a character beside those of numerals stays a text. -/
theorem ofLiteral_of_not_isNumberChar {cs : List Char} (h : ∃ c ∈ cs, isNumberChar c = false) :
    ofLiteral (String.ofList cs) = .text (String.ofList cs) := by
  obtain ⟨c, hc, hnot⟩ := h
  have hint : readInt? cs = none := Option.eq_none_iff_forall_ne_some.mpr fun i hi => by
    rw [isNumberChar_of_readInt? hi c hc] at hnot
    cases hnot
  have hread : read? cs = none := Option.eq_none_iff_forall_ne_some.mpr fun d hd => by
    rw [isNumberChar_of_read? hd c hc] at hnot
    cases hnot
  rw [ofLiteral, realOf?, String.toList_ofList, hint, hread]
  rfl

/-- A literal is a number exactly if it is one in lower case, and then the same. -/
theorem ofLiteral_map_lowerChar (t : List Char) :
    ofLiteral (String.ofList (t.map lowerChar)) =
      (ofLiteral (String.ofList t)).withText (String.ofList (t.map lowerChar)) := by
  have hreal : realOf? (t.map lowerChar) = realOf? t := by
    rw [realOf?, realOf?, read?_map_lowerChar]
  rw [ofLiteral, ofLiteral, String.toList_ofList, String.toList_ofList, readInt?_map_lowerChar,
    hreal]
  cases (readInt? t).bind wholeOf? with
  | some i => rfl
  | none =>
      cases realOf? t with
      | some x => rfl
      | none => rfl

theorem lowerWithin_of_isNumberChar {t : List Char} (h : ∀ c ∈ t, isNumberChar c = true)
    (before after : List Char) : lowerWithin before t after = t.map lowerChar := by
  refine Text.lowerWithin_eq_map before after fun c hc => ⟨?_, ?_⟩
  · rintro rfl
    exact absurd (h _ hc) (by decide)
  · rintro rfl
    exact absurd (h _ hc) (by decide)

/-- Lower-casing keeps a number, and makes no number of a text. -/
theorem ofLiteral_lowered (s : String) :
    ofLiteral (Text.lowered s) = (ofLiteral s).withText (Text.lowered s) := by
  rw [Text.lowered, Text.lower, ← Text.lowerWithin_nil]
  have hs : s = String.ofList s.toList := String.ofList_toList.symm
  generalize s.toList = t at hs
  subst hs
  by_cases hall : ∀ c ∈ t, isNumberChar c = true
  · rw [lowerWithin_of_isNumberChar hall, ofLiteral_map_lowerChar]
  · obtain ⟨c, hc, hnot⟩ : ∃ c ∈ t, isNumberChar c = false := by
      simpa using hall
    obtain ⟨before, after, hsub⟩ := Text.exists_lowerBetween_subset [] [] hc
    obtain ⟨d, hd, hd'⟩ := not_isNumberChar_of_mem_lowerBetween hnot before after
    rw [ofLiteral_of_not_isNumberChar ⟨d, hsub d hd, hd'⟩,
      ofLiteral_of_not_isNumberChar ⟨c, hc, hnot⟩]
    rfl

/-- A text that is no numeral is not what a number is shown as. -/
theorem not_sameText_number {v : Value} (hv : v.number? ≠ none) {s : String}
    (hs : ofLiteral s = .text s) : v.sameText (.text s) = false := by
  rw [sameText, beq_eq_false_iff_ne]
  intro heq
  -- in lower case the one is a number and the other is none
  have hnumber := ofLiteral_lowered v.shown
  have htext := ofLiteral_lowered s
  rw [heq, shown, htext, hs] at hnumber
  cases hshown : ofLiteral v.shown with
  | text t => exact ofLiteral_shown_ne_text hv t hshown
  | integer i => rw [hshown] at hnumber; cases hnumber
  | real x => rw [hshown] at hnumber; cases hnumber

/-- Cleaning keeps a number, and makes no number of a text. -/
theorem ofLiteral_clean {t : List Char} (htrim : trim t = t) (before after : List Char) :
    ofLiteral (String.ofList (collapse (lowerWithin before t after))) =
      (ofLiteral (String.ofList t)).withText
        (String.ofList (collapse (lowerWithin before t after))) := by
  by_cases hall : ∀ c ∈ t, isNumberChar c = true
  · have hlower := lowerWithin_of_isNumberChar hall before after
    have hblank : ∀ c ∈ t.map lowerChar, isBlank c = false := by
      rw [← hlower]
      exact fun c hc => Text.not_isBlank_of_mem_lowerWithin
        (fun d hd => not_isBlank_of_isNumberChar (hall d hd)) hc
    rw [hlower, Text.collapse_of_not_blank hblank, ofLiteral_map_lowerChar]
  · obtain ⟨c, hc, hnot⟩ : ∃ c ∈ t, isNumberChar c = false := by
      simpa using hall
    rw [ofLiteral_of_not_isNumberChar (exists_not_isNumberChar htrim hc hnot before after),
      ofLiteral_of_not_isNumberChar ⟨c, hc, hnot⟩]
    rfl

end Value

end Rulebook
