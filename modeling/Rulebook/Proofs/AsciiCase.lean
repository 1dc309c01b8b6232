import Rulebook.Proofs.CanonicalText
import Rulebook.Proofs.LiteralCase
import Rulebook.Proofs.MappedLiterals

/-!
# The case of ASCII letters

Two texts are equal up to the case of ASCII letters exactly if they are equal once these letters
are small (`Text.asciiLowered`).  So it is enough to say what becomes of one text when its ASCII
letters are made small.

The characters stay of their kinds, and what a table says of them stays.  A character beyond
ASCII is not changed, and of the others a table of 128 entries can be checked
(`Text.twins_toLower`).  So the text splits in the same places: words stand for what they stood
for, a number stays the same number, and only a text between quotes is changed, in the same way
(`tokensAndFault_asciiLowered`).
-/

namespace Rulebook

open Rulebook.Text (casedNext isAlphabetic isAlphanumeric isBlank isCased isCaseIgnorable isDigit
  lower lowerAfter lowerBetween lowerChar trim)

namespace Text

/-- A text whose ASCII letters are small. -/
def asciiLowered (s : String) : String := String.ofList (s.toList.map Char.toLower)

theorem sameIgnoringAsciiCase_iff_asciiLowered {s t : String} :
    sameIgnoringAsciiCase s t = true ↔ asciiLowered s = asciiLowered t := by
  rw [sameIgnoringAsciiCase, beq_iff_eq, asciiLowered, asciiLowered, String.ofList_inj]

/-! ## Characters -/

/-- Whether the scanner and the lower case take two characters for the same. -/
structure Twins (c d : Char) : Prop where
  /-- Both are alphabetic, or neither. -/
  alphabetic : isAlphabetic c = isAlphabetic d
  /-- Both are alphanumeric, or neither. -/
  alphanumeric : isAlphanumeric c = isAlphanumeric d
  /-- Both are blanks, or neither. -/
  blank : isBlank c = isBlank d
  /-- Both are digits, or neither. -/
  digit : isDigit c = isDigit d
  /-- Both are cased, or neither. -/
  cased : isCased c = isCased d
  /-- Both are passed over in the search for cased ones, or neither. -/
  caseIgnorable : isCaseIgnorable c = isCaseIgnorable d
  /-- Both may stand in a number, or neither. -/
  number : isNumberChar c = isNumberChar d
  /-- Both have one lower case. -/
  lower : lowerChar c = lowerChar d
  /-- Both have as many bytes. -/
  size : c.utf8Size = d.utf8Size
  /-- Both are of ASCII, or neither. -/
  ascii : c.toNat < 128 ↔ d.toNat < 128

instance (c d : Char) : Decidable (Twins c d) :=
  decidable_of_iff
    (isAlphabetic c = isAlphabetic d ∧ isAlphanumeric c = isAlphanumeric d ∧
      isBlank c = isBlank d ∧ isDigit c = isDigit d ∧ isCased c = isCased d ∧
      isCaseIgnorable c = isCaseIgnorable d ∧ isNumberChar c = isNumberChar d ∧
      lowerChar c = lowerChar d ∧ c.utf8Size = d.utf8Size ∧ (c.toNat < 128 ↔ d.toNat < 128))
    ⟨fun ⟨h₁, h₂, h₃, h₄, h₅, h₆, h₇, h₈, h₉, h₀⟩ => ⟨h₁, h₂, h₃, h₄, h₅, h₆, h₇, h₈, h₉, h₀⟩,
      fun h => ⟨h.alphabetic, h.alphanumeric, h.blank, h.digit, h.cased, h.caseIgnorable, h.number,
        h.lower, h.size, h.ascii⟩⟩

/-- A small ASCII letter is taken for the capital one. -/
theorem twins_toLower (c : Char) : Twins c.toLower c := by
  by_cases hc : c.toNat < 128
  · have table : ∀ n < 128, Twins (Char.ofNat n).toLower (Char.ofNat n) := by decide +kernel
    have h := table c.toNat hc
    rwa [Char.ofNat_toNat] at h
  · rw [toLower_of_not_ascii (Nat.le_of_not_lt hc)]
    exact ⟨rfl, rfl, rfl, rfl, rfl, rfl, rfl, rfl, rfl, Iff.rfl⟩

/-- A character that is no letter stays, and nothing else becomes one. -/
theorem toLower_eq_iff {c x : Char} (hx : isAlphabetic x = false) : c.toLower = x ↔ c = x := by
  have hstays : ∀ d, isAlphabetic d = false → d.toLower = d := by
    intro d hd
    by_cases hascii : d.toNat < 128
    · rw [← lowerChar_of_ascii hascii]
      exact (lowerChar_eq_iff hd).mpr rfl
    · exact toLower_of_not_ascii (Nat.le_of_not_lt hascii)
  constructor
  · rintro rfl
    exact (hstays c ((twins_toLower c).alphabetic.symm.trans hx)).symm
  · rintro rfl
    exact hstays c hx

/-- A character beyond ASCII stays, and nothing else becomes one. -/
theorem toLower_eq_iff_of_not_ascii {c x : Char} (hx : 128 ≤ x.toNat) : c.toLower = x ↔ c = x := by
  by_cases hc : c.toNat < 128
  · have hlow := (twins_toLower c).ascii.mpr hc
    refine iff_of_false ?_ ?_
    · rintro rfl
      exact absurd hx (Nat.not_le.mpr hlow)
    · rintro rfl
      exact absurd hx (Nat.not_le.mpr hc)
  · rw [toLower_of_not_ascii (Nat.le_of_not_lt hc)]

theorem isNumeral_toLower (c : Char) : Token.isNumeral c.toLower = Token.isNumeral c := by
  rw [Token.isNumeral, Token.isNumeral, (twins_toLower c).digit, Bool.eq_iff_iff]
  simp only [Bool.or_eq_true, beq_iff_eq, toLower_eq_iff (show isAlphabetic '.' = false by decide)]

/-! ## Texts -/

variable {p : Char → Bool}

theorem takeWhile_map_toLower (hp : ∀ c, p c.toLower = p c) (cs : List Char) :
    (cs.map Char.toLower).takeWhile p = (cs.takeWhile p).map Char.toLower := by
  have hcomp : p ∘ Char.toLower = p := funext hp
  rw [List.takeWhile_map, hcomp]

theorem dropWhile_map_toLower (hp : ∀ c, p c.toLower = p c) (cs : List Char) :
    (cs.map Char.toLower).dropWhile p = (cs.dropWhile p).map Char.toLower := by
  have hcomp : p ∘ Char.toLower = p := funext hp
  rw [List.dropWhile_map, hcomp]

theorem trim_map_toLower (cs : List Char) :
    trim (cs.map Char.toLower) = (trim cs).map Char.toLower := by
  have hblank : ∀ c : Char, isBlank c.toLower = isBlank c := fun c => (twins_toLower c).blank
  rw [trim, trim, dropWhile_map_toLower hblank, ← List.map_reverse, dropWhile_map_toLower hblank,
    ← List.map_reverse]

theorem casedNext_map_toLower (cs : List Char) :
    casedNext (cs.map Char.toLower) = casedNext cs := by
  rw [casedNext, casedNext, dropWhile_map_toLower fun c => (twins_toLower c).caseIgnorable]
  cases cs.dropWhile isCaseIgnorable with
  | nil => rfl
  | cons c cs => exact (twins_toLower c).cased

theorem lowerBetween_map_toLower (before : List Char) (c : Char) (after : List Char) :
    lowerBetween (before.map Char.toLower) c.toLower (after.map Char.toLower) =
      lowerBetween before c after := by
  have hsigma : c.toLower = 'Σ' ↔ c = 'Σ' := toLower_eq_iff_of_not_ascii (by decide)
  have hdotted : c.toLower = 'İ' ↔ c = 'İ' := toLower_eq_iff_of_not_ascii (by decide)
  rw [lowerBetween, lowerBetween, casedNext_map_toLower, casedNext_map_toLower,
    (twins_toLower c).lower]
  simp only [hsigma, hdotted]

theorem lowerAfter_map_toLower (before cs : List Char) :
    lowerAfter (before.map Char.toLower) (cs.map Char.toLower) = lowerAfter before cs := by
  induction cs generalizing before with
  | nil => rfl
  | cons c cs ih =>
    rw [List.map_cons, lowerAfter, lowerAfter, lowerBetween_map_toLower]
    exact congrArg _ (ih (c :: before))

/-- A text has one lower case, however its ASCII letters are written. -/
theorem lower_map_toLower (cs : List Char) : lower (cs.map Char.toLower) = lower cs :=
  lowerAfter_map_toLower [] cs

theorem lowered_asciiLowered (s : String) : lowered (asciiLowered s) = lowered s := by
  rw [lowered, lowered, asciiLowered, String.toList_ofList, lower_map_toLower]

end Text

/-! ## Literals -/

/-- A value whose ASCII letters are small, if it is a text. -/
def Value.asciiLowered : Value → Value
  | .text s => .text (Text.asciiLowered s)
  | v => v

/-- A number is the same number with its letters small, and a text stays a text. -/
theorem Value.ofLiteral_map_toLower (cs : List Char) :
    ofLiteral (String.ofList (cs.map Char.toLower)) =
      (ofLiteral (String.ofList cs)).asciiLowered := by
  have htext : Text.asciiLowered (String.ofList cs) = String.ofList (cs.map Char.toLower) := by
    rw [Text.asciiLowered, String.toList_ofList]
  by_cases hall : ∀ c ∈ cs, isNumberChar c = true
  · -- these characters are of ASCII, where one lower case is the other
    have hlower : cs.map lowerChar = cs.map Char.toLower :=
      List.map_congr_left fun c hc => Text.lowerChar_of_ascii (ascii_of_isNumberChar (hall c hc))
    rw [← hlower, ofLiteral_map_lowerChar, hlower]
    cases hv : ofLiteral (String.ofList cs) with
    | integer i => rfl
    | real x => rfl
    | text s =>
      obtain rfl := eq_of_ofLiteral_text hv
      rw [withText, asciiLowered, htext]
  · obtain ⟨c, hc, hnot⟩ : ∃ c ∈ cs, isNumberChar c = false := by
      simpa using hall
    have hnot' : isNumberChar c.toLower = false := (Text.twins_toLower c).number.trans hnot
    rw [ofLiteral_of_not_isNumberChar ⟨c.toLower, List.mem_map_of_mem hc, hnot'⟩,
      ofLiteral_of_not_isNumberChar ⟨c, hc, hnot⟩, asciiLowered, htext]

/-! ## Splitting -/

namespace Token

theorem width_map_toLower (cs : List Char) : width (cs.map Char.toLower) = width cs := by
  induction cs with
  | nil => rfl
  | cons c cs ih => rw [List.map_cons, width, width, (Text.twins_toLower c).size, ih]

/-- A word stands for the same however its ASCII letters are written. -/
theorem ofWord_map_toLower (w : List Char) : ofWord (w.map Char.toLower) = ofWord w := by
  have hkeyword : Connective.ofKeyword? (String.ofList (w.map Char.toLower)) =
      Connective.ofKeyword? (String.ofList w) := by
    rw [← Text.ofKeyword?_lower, Text.lower_map_toLower, Text.ofKeyword?_lower]
  rw [ofWord, ofWord, hkeyword, Text.lower_map_toLower]

theorem mapLiteral_ofWord (g : Value → Value) (w : List Char) :
    (ofWord w).mapLiteral g = ofWord w := by
  rw [ofWord]
  cases Connective.ofKeyword? (String.ofList w) <;> rfl

/-- A lexeme is cut where one was, and nothing else is wrong. -/
theorem cut_map_toLower (o : Nat) (c : Char) (cs : List Char) :
    cut o c.toLower (cs.map Char.toLower) = (cut o c cs).map fun k =>
      ⟨k.lexeme.mapLiteral Value.asciiLowered, k.width, k.rest.map Char.toLower⟩ := by
  have htwins := Text.twins_toLower c
  by_cases halpha : isAlphabetic c = true
  · have hword : ∀ d : Char, isAlphanumeric d.toLower = isAlphanumeric d :=
      fun d => (Text.twins_toLower d).alphanumeric
    rw [cut_alphabetic o _ (htwins.alphabetic.trans halpha), cut_alphabetic o _ halpha,
      Text.takeWhile_map_toLower hword, Text.dropWhile_map_toLower hword, ← List.map_cons,
      width_map_toLower, ofWord_map_toLower, Except.map, mapLiteral_ofWord]
  by_cases hdigit : isDigit c = true
  · rw [cut_digit o _ (htwins.digit.trans hdigit), cut_digit o _ hdigit,
      Text.takeWhile_map_toLower Text.isNumeral_toLower,
      Text.dropWhile_map_toLower Text.isNumeral_toLower, ← List.map_cons, width_map_toLower,
      ofLiteral, Value.ofLiteral_map_toLower]
    rfl
  -- what is left is a mark, a quote or a fault, and stays as it is
  rw [(Text.toLower_eq_iff (Bool.not_eq_true _ ▸ halpha)).mpr rfl]
  unfold cut
  split
  next => rfl
  split
  next => rfl
  split
  next => rfl
  split
  next => rfl
  split
  next => rfl
  split
  next =>
    -- the text between quotes is cut at the same quote
    have hquote : ∀ d : Char, decide (d.toLower ≠ '\'') = decide (d ≠ '\'') := fun d =>
      decide_eq_decide.mpr (not_congr (Text.toLower_eq_iff (by decide)))
    rw [Text.takeWhile_map_toLower hquote, Text.dropWhile_map_toLower hquote]
    cases cs.dropWhile (· ≠ '\'') with
    | nil => rfl
    | cons d rest =>
      simp only [List.map_cons, Text.trim_map_toLower, ofLiteral, Value.ofLiteral_map_toLower,
        width_map_toLower]
      rfl
  rfl

/-- The text splits in the same places, and stops at the same one. -/
theorem scan_map_toLower (o : Nat) (cs : List Char) :
    scan o (cs.map Char.toLower) =
      ((scan o cs).1.map (Token.mapLiteral Value.asciiLowered), (scan o cs).2) := by
  match cs with
  | [] =>
    rw [List.map_nil, scan]
    rfl
  | c :: cs =>
    have hblank := (Text.twins_toLower c).blank
    have hcut := cut_map_toLower o c cs
    rw [List.map_cons]
    cases hc : isBlank c with
    | true =>
      rw [scan_blank o cs hc, scan_blank o _ (hblank.trans hc), (Text.twins_toLower c).size,
        scan_map_toLower _ cs]
    | false =>
      cases hk : cut o c cs with
      | error e =>
        rw [hk] at hcut
        rw [scan_fault hc hk, scan_fault (hblank.trans hc) hcut]
        rfl
      | ok k =>
        rw [hk] at hcut
        have := length_rest_le hk
        rw [scan_cut hc hk, scan_cut (hblank.trans hc) hcut, scan_map_toLower _ k.rest]
        rfl
termination_by cs.length

end Token

/-! ## Reading -/

/-- Making the ASCII letters of a text small makes those of its literals small. -/
theorem tokensAndFault_asciiLowered (text : String) :
    tokensAndFault (Text.asciiLowered text) =
      ((tokensAndFault text).1.map (Token.mapLiteral Value.asciiLowered),
        (tokensAndFault text).2) := by
  rw [tokensAndFault, tokensAndFault, Text.asciiLowered, String.toList_ofList,
    Token.scan_map_toLower]

theorem parseRule_asciiLowered (text : String) :
    parseRule (Text.asciiLowered text) =
      ((parseRule text).map (Formula.mapLiteral Value.asciiLowered)).mapError
        (ParseError.mapLiteral Value.asciiLowered) := by
  rw [parseRule, parseRule, tokenize, tokenize, tokensAndFault_asciiLowered]
  obtain ⟨ts, fault⟩ := tokensAndFault text
  cases fault with
  | none => exact Formula.ofTokens_mapLiteral Value.asciiLowered ts
  | some e => rfl

end Rulebook
