import Rulebook.Proofs.Blanks
import Rulebook.Proofs.Printing

/-!
# Formulas that are written and read again

`parseRule f.text` reads the text of a formula again.  Two kinds of formulas are
considered.

A formula from another source may join any number of formulas.  If each of its
comparisons is *plain*, the text is read as a formula with the same verdicts, or refused
for its nesting (`reparse_keeps_verdicts`).

A formula that was read from a text has paired operators, and its field names, comparators
and literals are *scanned* ones.  Its text nests no deeper than the text it was read from.
Still it does not always come back.  A literal in quotes may be a negative number, and
there is no numeral for one.  A double may be whole and not below `1e15`, and then comes
back as a whole number (`not_reparse_eq_self`).  And lower-casing leaves a combining dot
in a field name that held an `İ`, and no word holds one.  `reparse_eq_self_iff` says that
nothing else goes wrong.
-/

namespace Rulebook

open Rulebook.Formula (comparisonText literalText)
open Rulebook.Text (IsWord isAlphabetic isAlphanumeric isBlank isDigit lower trim)
open Rulebook.Token (isNumeral ofLiteral ofWord)

/-! ## The text of a comparison -/

/-- A field name that is scanned as itself. -/
structure FieldName (name : String) : Prop where
  /-- It is a word. -/
  word : IsWord name.toList
  /-- It is in lower case. -/
  lower_eq : lower name.toList = name.toList
  /-- It is no connective. -/
  not_keyword : Connective.ofKeyword? name = none

/-- A comparator that a rule can be written with. -/
def Comparator.IsMark (c : Comparator) : Prop := c = .gt ∨ c = .lt ∨ c = .eq

theorem ofWord_fieldName {name : String} (h : FieldName name) :
    ofWord name.toList = .field name := by
  rw [ofWord, String.ofList_toList, h.not_keyword]
  simp only
  rw [h.lower_eq, String.ofList_toList]

/-- The symbol of a comparator is a mark. -/
theorem Comparator.IsMark.symbol {c : Comparator} (h : c.IsMark) :
    ∃ m, c.symbol.toList = [m] ∧ (m, Lexeme.comparator c) ∈ marks := by
  obtain rfl | rfl | rfl := h
  · exact ⟨'>', rfl, by simp [marks]⟩
  · exact ⟨'<', rfl, by simp [marks]⟩
  · exact ⟨'=', rfl, by simp [marks]⟩

theorem toList_comparisonText (c : Comparison) (cs : List Char) :
    (comparisonText c).toList ++ cs = c.field.toList ++
      ' ' :: (c.comparator.symbol.toList ++ ' ' :: ((literalText c.literal).toList ++ cs)) := by
  rw [comparisonText]
  simp only [String.toList_append, List.append_assoc]
  rfl

/-- A field name and a comparator are scanned, and what follows is the literal. -/
theorem lexemes?_comparisonText {c : Comparison} (hfield : FieldName c.field)
    (hmark : c.comparator.IsMark) (cs : List Char) :
    lexemes? ((comparisonText c).toList ++ cs) =
      (lexemes? ((literalText c.literal).toList ++ cs)).map
        fun ls => .field c.field :: .comparator c.comparator :: ls := by
  obtain ⟨m, hsymbol, hm⟩ := hmark.symbol
  have hspace : isBlank ' ' = true := by decide
  have hend : Ends isAlphanumeric
      (' ' :: (m :: ' ' :: ((literalText c.literal).toList ++ cs))) :=
    fun d hd => by cases hd; decide +kernel
  rw [toList_comparisonText, hsymbol, List.singleton_append, lexemes?_word _ hfield.word hend,
    ofWord_fieldName hfield, lexemes?_blank _ hspace, lexemes?_mark _ hm, lexemes?_blank _ hspace,
    Option.map_map]
  rfl

theorem scans_of_legible {c : Comparison} (hfield : FieldName c.field)
    (hmark : c.comparator.IsMark) (hlegible : c.literal.Legible) : c.Scans := by
  intro cs hend
  rw [lexemes?_comparisonText hfield hmark, Value.lexemes?_literalText hlegible hend,
    Option.map_map]
  rfl

theorem faults_of_minus {c : Comparison} (hfield : FieldName c.field) (hmark : c.comparator.IsMark)
    (hlegible : ¬ c.literal.Legible) (htext : ∀ s, c.literal ≠ .text s) : c.Faults := by
  intro cs
  rw [lexemes?_comparisonText hfield hmark, Value.lexemes?_literalText_minus cs hlegible htext]
  rfl

/-! ## Words in lower case -/

/-- The lower case of a word with a combining dot stops the scanner. -/
theorem lexemes?_dotted {w : List Char} (hw : IsWord w) (hdot : '\u0307' ∈ lower w)
    (cs : List Char) : lexemes? (lower w ++ cs) = none := by
  have hsplit := List.takeWhile_append_dropWhile (p := isAlphanumeric) (l := lower w)
  have hends := ends_dropWhile isAlphanumeric (lower w)
  have hhead : IsWord ((lower w).takeWhile isAlphanumeric) := by
    refine ⟨?_, fun c hc => List.mem_takeWhile_imp hc⟩
    obtain ⟨d, ds, hlower, halpha⟩ := hw.exists_lower_eq_cons
    refine ⟨d, ds.takeWhile isAlphanumeric, ?_, halpha⟩
    rw [hlower, List.takeWhile_cons_of_pos (Text.isAlphanumeric_of_isAlphabetic halpha)]
  cases hrest : (lower w).dropWhile isAlphanumeric with
  | nil =>
      -- the dot is not alphanumeric, so it is not among the characters taken
      rw [hrest, List.append_nil] at hsplit
      rw [← hsplit] at hdot
      exact absurd (List.mem_takeWhile_imp hdot) (by decide +kernel)
  | cons d ds =>
      rw [hrest] at hsplit hends
      have hd : d = '\u0307' := by
        refine Decidable.by_contra fun hne => ?_
        have hmem : d ∈ lower w := by
          rw [← hsplit]
          exact List.mem_append_right _ List.mem_cons_self
        have halnum := Text.isAlphanumeric_of_mem_lowerAfter hne hw.all hmem
        rw [hends d rfl] at halnum
        cases halnum
      subst hd
      have hfault : lexemes? ('\u0307' :: (ds ++ cs)) = none :=
        lexemes?_stray _ (by decide) (by decide) (by decide) (by decide +kernel) (by decide)
      rw [← hsplit, List.append_assoc, List.cons_append,
        lexemes?_word ('\u0307' :: (ds ++ cs)) hhead fun c hc => hends c hc, hfault]
      rfl

/-! ## Comparisons from other sources -/

/-- A literal that is written as one lexeme and, if it is a text, read back as that text. -/
def Value.Plain : Value → Prop
  | .integer i => 0 ≤ i.toInt
  | .real x => x.negative = false
  | .text s => '\'' ∉ s.toList ∧ Value.ofLiteral (Text.trimmed s) = .text s

/-- A comparison whose parts can be written in a rule. -/
structure Comparison.Plain (c : Comparison) : Prop where
  /-- The name of the field is one token, which is the field. -/
  field : ∃ offset, tokenize c.field = .ok [⟨.field c.field, offset⟩]
  /-- The comparator has a symbol that is scanned. -/
  comparator : c.comparator.IsMark
  /-- The literal can be written. -/
  literal : c.literal.Plain

theorem Value.Plain.legible {v : Value} (h : v.Plain) : v.Legible := by
  cases v with
  | integer i => exact h
  | real x => exact h
  | text s => exact h.1

/-- A plain literal is read back as one that no comparator tells apart from it. -/
theorem Value.Plain.reread {v : Value} (h : v.Plain) :
    v.reread.number? = v.number? ∧ v.reread.shown = v.shown := by
  cases v with
  | integer i =>
      rw [Value.reread_integer h]
      exact ⟨rfl, rfl⟩
  | real x => exact Value.number?_reread_real h
  | text s =>
      rw [Value.reread, h.2]
      exact ⟨rfl, rfl⟩

theorem Comparison.Plain.verdict_reread {c : Comparison} (h : c.Plain) (record : Record) :
    c.reread.verdict record = c.verdict record := by
  rw [Comparison.verdict, Comparison.verdict, Comparison.reread]
  cases record.get? c.field with
  | none => rfl
  | some actual =>
      exact Value.verdict_congr c.comparator actual h.literal.reread.1 h.literal.reread.2

/-- The only lexeme of a text is a field if the text is a word with blanks around it. -/
theorem exists_word_of_lexes {cs : List Char} {ls : List Lexeme} {name : String}
    (h : Lexes cs ls) (hls : ls = [.field name]) :
    ∃ before w after, cs = before ++ w ++ after ∧ IsWord w ∧ ofWord w = .field name ∧
      (∀ c ∈ before, isBlank c = true) ∧ ∀ c ∈ after, isBlank c = true := by
  have blanks : ∀ {ds : List Char} {ms : List Lexeme}, Lexes ds ms → ms = [] →
      ∀ c ∈ ds, isBlank c = true := by
    intro ds ms hds
    induction hds with
    | nil => exact fun _ c hc => absurd hc List.not_mem_nil
    | blank hd _ ih =>
      exact fun hms c hc => (List.mem_cons.mp hc).elim (fun heq => heq ▸ hd) (ih hms c)
    | mark _ _ _ => exact fun hms => absurd hms (List.cons_ne_nil _ _)
    | quoted _ _ _ => exact fun hms => absurd hms (List.cons_ne_nil _ _)
    | word _ _ _ _ => exact fun hms => absurd hms (List.cons_ne_nil _ _)
    | numeral _ _ _ _ _ => exact fun hms => absurd hms (List.cons_ne_nil _ _)
  induction h with
  | nil => cases hls
  | @blank c cs ls hc _ ih =>
      obtain ⟨before, w, after, rfl, hw, hword, hbefore, hafter⟩ := ih hls
      refine ⟨c :: before, w, after, rfl, hw, hword, ?_, hafter⟩
      exact List.forall_mem_cons.mpr ⟨hc, hbefore⟩
  | @mark c l cs ls hc _ _ =>
      cases hls
      simp [marks] at hc
  | @quoted content cs ls _ _ _ => cases hls
  | @word w cs ls hw _ hrest _ =>
      obtain ⟨hl, hls⟩ := List.cons.inj hls
      exact ⟨[], w, cs, rfl, hw, hl, fun c hc => absurd hc List.not_mem_nil, blanks hrest hls⟩
  | @numeral d ds cs ls _ _ _ _ _ => cases hls

/-- A name that is scanned as itself has no blanks around it. -/
theorem Comparison.Plain.fieldName {c : Comparison} (h : c.Plain) : FieldName c.field := by
  obtain ⟨offset, htok⟩ := h.field
  have hlexes := lexes_of_lexemes? _ (lexemes?_of_tokenize htok)
  obtain ⟨before, w, after, hcs, hw, hword, hbefore, hafter⟩ := exists_word_of_lexes hlexes rfl
  rw [ofWord] at hword
  split at hword
  case h_1 => cases hword
  case h_2 hkey =>
    have hname : lower w = c.field.toList := by
      rw [← Lexeme.field.inj hword, String.toList_ofList]
    -- the name is the lower case of its word, and lower-casing makes no blanks
    have hclear : ∀ d ∈ c.field.toList, isBlank d = false := by
      intro d hd
      rw [← hname] at hd
      by_cases hdot : d = '\u0307'
      · rw [hdot]
        decide
      · exact Text.not_isBlank_of_isAlphanumeric
          (Text.isAlphanumeric_of_mem_lowerAfter hdot hw.all hd)
    have none_of : ∀ ds : List Char, (∀ d ∈ ds, isBlank d = true) → (∀ d ∈ ds, d ∈ c.field.toList) →
        ds = [] := by
      intro ds hblank hmem
      cases ds with
      | nil => rfl
      | cons d ds =>
          have hd := hclear d (hmem d List.mem_cons_self)
          rw [hblank d List.mem_cons_self] at hd
          cases hd
    have hb := none_of before hbefore fun d hd => by rw [hcs]; simp [hd]
    have ha := none_of after hafter fun d hd => by rw [hcs]; simp [hd]
    rw [hb, ha, List.nil_append, List.append_nil] at hcs
    refine ⟨hcs ▸ hw, ?_, ?_⟩
    · rw [hcs, hname, ← hcs]
    · rw [← hcs, String.ofList_toList] at hkey
      exact hkey

theorem Comparison.Plain.scans {c : Comparison} (h : c.Plain) : c.Scans :=
  scans_of_legible h.fieldName h.comparator h.literal.legible

/-- To write a formula with plain comparisons and to read it again keeps its verdicts, unless the
text is refused for its nesting.  It is not where every operator joins two parts and the formula is
no higher than the language allows. -/
theorem reparse_keeps_verdicts (f : Formula) (hjoin : ∀ n ∈ f.arities, 1 ≤ n)
    (hplain : ∀ c ∈ f.comparisons, c.Plain) :
    (parseRule f.text = .error .tooDeep ∨
      ∃ g, parseRule f.text = .ok g ∧ ∀ record, g.verdict record = f.verdict record) ∧
    ((∀ n ∈ f.arities, n = 2) → f.height ≤ maxNesting → parseRule f.text ≠ .error .tooDeep) := by
  have hlexemes : lexemes? f.text.toList = some f.chain.lexemes := by
    have h := Formula.lexemes?_text f [] hjoin (fun c hc => (hplain c hc).scans)
      (fun c hc => by cases hc)
    rw [List.append_nil, lexemes?_nil, Option.map_some, List.append_nil] at h
    exact h
  rw [parseRule_of_lexemes hlexemes]
  refine ⟨?_, fun hpair hheight => ?_⟩
  · split
    case isTrue =>
      refine Or.inr ⟨f.chain.formula, rfl, fun record => ?_⟩
      exact Formula.verdict_chain record f hjoin fun c hc => (hplain c hc).verdict_reread record
    case isFalse => exact Or.inl rfl
  · have hnesting := (Formula.paired_of_arities f hpair).nesting_chain_le_height
    rw [if_pos (hnesting.trans hheight)]
    intro h
    cases h

/-- A formula with an operator of three parts, an operator of one and a double that comes back as a
whole number. -/
def threeParts : Formula :=
  .joined .and [.leaf ⟨"a", .gt, .real (Binary64.ofInt 1000000000000000)⟩,
    .joined .or [.leaf ⟨"b", .eq, .text "x"⟩], .leaf ⟨"c", .lt, .integer 3⟩]

/-- The same comparisons in operators of two parts. -/
def twoParts : Formula :=
  .joined .and [.leaf ⟨"a", .gt, .real (Binary64.ofInt 1000000000000000)⟩,
    .joined .or [.leaf ⟨"b", .eq, .text "x"⟩, .leaf ⟨"c", .lt, .integer 3⟩]]

theorem reparse_keeps_verdicts_threeParts :
    (∀ n ∈ threeParts.arities, 1 ≤ n) ∧ (∀ c ∈ threeParts.comparisons, c.Plain) ∧
    (parseRule threeParts.text = .error .tooDeep ∨ ∃ g, parseRule threeParts.text = .ok g ∧
      ∀ record, g.verdict record = threeParts.verdict record) ∧
    (∀ n ∈ twoParts.arities, n = 2) ∧ twoParts.height ≤ maxNesting ∧
    parseRule twoParts.text ≠ .error .tooDeep := by
  have ha : Comparison.Plain ⟨"a", .gt, .real (Binary64.ofInt 1000000000000000)⟩ :=
    ⟨⟨0, by decide +kernel⟩, Or.inl rfl, rfl⟩
  have hb : Comparison.Plain ⟨"b", .eq, .text "x"⟩ :=
    ⟨⟨0, by decide +kernel⟩, Or.inr (Or.inr rfl), by decide, by decide +kernel⟩
  have hc : Comparison.Plain ⟨"c", .lt, .integer 3⟩ :=
    ⟨⟨0, by decide +kernel⟩, Or.inr (Or.inl rfl), by
      rw [Value.Plain]
      decide⟩
  have hplain : ∀ c ∈ ([⟨"a", .gt, .real (Binary64.ofInt 1000000000000000)⟩, ⟨"b", .eq, .text "x"⟩,
      ⟨"c", .lt, .integer 3⟩] : List Comparison), c.Plain :=
    List.forall_mem_cons.mpr ⟨ha, List.forall_mem_cons.mpr ⟨hb, List.forall_mem_singleton.mpr hc⟩⟩
  have hthree : ∀ n ∈ threeParts.arities, 1 ≤ n := by decide
  have htwo : ∀ n ∈ twoParts.arities, n = 2 := by decide
  have hheight : twoParts.height ≤ maxNesting := by decide
  exact ⟨hthree, hplain, (reparse_keeps_verdicts threeParts hthree hplain).1, htwo, hheight,
    (reparse_keeps_verdicts twoParts (by decide) hplain).2 htwo hheight⟩

/-! ## Formulas that were read -/

/-- What can be said of a lexeme that was scanned. -/
def Lexeme.Scanned : Lexeme → Prop
  | .field name => ∃ w, IsWord w ∧ Connective.ofKeyword? (String.ofList w) = none ∧
      name = String.ofList (lower w)
  | .comparator c => c.IsMark
  | .value v => ∃ raw, '\'' ∉ raw ∧ trim raw = raw ∧ v = Value.ofLiteral (String.ofList raw)
  | _ => True

theorem Lexes.scanned {cs : List Char} {ls : List Lexeme} (h : Lexes cs ls) :
    ∀ l ∈ ls, l.Scanned := by
  induction h with
  | nil => exact fun l hl => absurd hl List.not_mem_nil
  | blank _ _ ih => exact ih
  | @mark c l cs ls hc _ ih =>
      refine List.forall_mem_cons.mpr ⟨?_, ih⟩
      simp only [marks, List.mem_cons, Prod.mk.injEq, List.not_mem_nil, or_false] at hc
      obtain ⟨-, rfl⟩ | ⟨-, rfl⟩ | ⟨-, rfl⟩ | ⟨-, rfl⟩ | ⟨-, rfl⟩ := hc
      · exact trivial
      · exact trivial
      · exact Or.inl rfl
      · exact Or.inr (Or.inl rfl)
      · exact Or.inr (Or.inr rfl)
  | @quoted content cs ls hq _ ih =>
      refine List.forall_mem_cons.mpr ⟨⟨trim content, ?_, Text.trim_trim content, rfl⟩, ih⟩
      exact fun hmem => hq (Text.mem_of_mem_trim hmem)
  | @word w cs ls hw _ _ ih =>
      refine List.forall_mem_cons.mpr ⟨?_, ih⟩
      cases hkey : Connective.ofKeyword? (String.ofList w) with
      | some k =>
          rw [ofWord_of_keyword hkey]
          exact trivial
      | none =>
          rw [ofWord_of_not_keyword hkey]
          exact ⟨w, hw, hkey, rfl⟩
  | @numeral d ds cs ls hd hds _ _ ih =>
      have hall : ∀ c ∈ d :: ds, isNumeral c = true :=
        List.forall_mem_cons.mpr ⟨isNumeral_of_isDigit hd, hds⟩
      refine List.forall_mem_cons.mpr ⟨⟨d :: ds, ?_, ?_, rfl⟩, ih⟩
      · exact fun hmem => absurd (hall _ hmem) (by decide)
      · exact Text.trim_of_not_blank fun c hc => not_isBlank_of_isNumeral (hall c hc)

/-- What can be said of a comparison that was read. -/
structure Comparison.Scanned (c : Comparison) : Prop where
  /-- Its field was scanned. -/
  field : (Lexeme.field c.field).Scanned
  /-- Its comparator was scanned. -/
  comparator : (Lexeme.comparator c.comparator).Scanned
  /-- Its literal was scanned. -/
  literal : (Lexeme.value c.literal).Scanned

mutual

/-- The comparisons of a chain are among its lexemes. -/
theorem Chain.scanned : ∀ e : Chain, (∀ l ∈ e.lexemes, l.Scanned) →
    ∀ c ∈ e.formula.comparisons, c.Scanned
  | .last p, h => by
      rw [Chain.lexemes] at h
      rw [Chain.formula]
      exact Primary.scanned p h
  | .link p k rest, h => by
      rw [Chain.lexemes] at h
      rw [Chain.formula, Formula.comparisons_pair]
      intro c hc
      obtain hc | hc := List.mem_append.mp hc
      · exact Primary.scanned p (fun l hl => h l (List.mem_append_left _ hl)) c hc
      · exact Chain.scanned rest
          (fun l hl => h l (List.mem_append_right _ (List.mem_cons_of_mem _ hl))) c hc

/-- The comparisons of a primary are among its lexemes. -/
theorem Primary.scanned : ∀ p : Primary, (∀ l ∈ p.lexemes, l.Scanned) →
    ∀ c ∈ p.formula.comparisons, c.Scanned
  | .comparison c, h => by
      rw [Primary.lexemes] at h
      rw [Primary.formula, Formula.comparisons, List.forall_mem_singleton]
      exact ⟨h _ (by simp), h _ (by simp), h _ (by simp)⟩
  | .group e, h => by
      rw [Primary.lexemes] at h
      rw [Primary.formula]
      exact Chain.scanned e fun l hl => h l (List.mem_cons_of_mem _ (List.mem_append_left _ hl))

end

namespace Comparison.Scanned

variable {c : Comparison}

theorem fieldName (h : c.Scanned) (hdot : '\u0307' ∉ c.field.toList) : FieldName c.field := by
  obtain ⟨w, hw, hkey, hname⟩ := h.field
  have hlist : c.field.toList = lower w := by rw [hname, String.toList_ofList]
  rw [hlist] at hdot
  refine ⟨?_, ?_, ?_⟩
  · rw [hlist]
    exact hw.lower hdot
  · rw [hlist, Text.lower_lower]
  · rw [hname, Text.ofKeyword?_lower, hkey]

/-- A combining dot in a field name stops the scanner. -/
theorem faults_of_dot (h : c.Scanned) (hdot : '\u0307' ∈ c.field.toList) : c.Faults := by
  obtain ⟨w, hw, -, hname⟩ := h.field
  have hlist : c.field.toList = lower w := by rw [hname, String.toList_ofList]
  intro cs
  rw [toList_comparisonText, hlist]
  exact lexemes?_dotted hw (hlist ▸ hdot) _

end Comparison.Scanned

/-- A literal that stays a text is the text as it was written. -/
theorem Value.eq_of_ofLiteral_text {raw s : String} (h : ofLiteral raw = .text s) : raw = s := by
  rw [ofLiteral] at h
  split at h
  case h_1 => cases h
  case h_2 =>
    split at h
    case h_1 => cases h
    case h_2 => exact Value.text.inj h

namespace Comparison.Scanned

variable {c : Comparison}

/-- A text that was read is written with nothing but its quotes added, and read back. -/
theorem text_literal (h : c.Scanned) {s : String} (hs : c.literal = .text s) :
    c.literal.Legible ∧ c.literal.reread = c.literal := by
  obtain ⟨raw, hquote, htrim, hraw⟩ := h.literal
  rw [hs] at hraw ⊢
  have hsame := Value.eq_of_ofLiteral_text hraw.symm
  have hlist : s.toList = raw := by rw [← hsame, String.toList_ofList]
  refine ⟨?_, ?_⟩
  · rw [Value.Legible, hlist]
    exact hquote
  · rw [Value.reread, Text.trimmed, hlist, htrim, hraw]

/-- The scanner gets through a comparison that was read or is stopped by it. -/
theorem scans_iff (h : c.Scanned) :
    (c.Scans ∧ '\u0307' ∉ c.field.toList ∧ c.literal.Legible) ∨
      (c.Faults ∧ ¬ ('\u0307' ∉ c.field.toList ∧ c.literal.Legible)) := by
  by_cases hdot : '\u0307' ∈ c.field.toList
  · exact Or.inr ⟨h.faults_of_dot hdot, fun hc => hc.1 hdot⟩
  · by_cases hlegible : c.literal.Legible
    · exact Or.inl ⟨scans_of_legible (h.fieldName hdot) h.comparator hlegible, hdot, hlegible⟩
    · have htext : ∀ s, c.literal ≠ .text s := fun s hs => hlegible (h.text_literal hs).1
      exact Or.inr ⟨faults_of_minus (h.fieldName hdot) h.comparator hlegible htext,
        fun hc => hlegible hc.2⟩

end Comparison.Scanned

/-- Whether a literal that was read comes back as it was: it has no minus, and it is no whole double
that is written without a point. -/
def Value.Kept : Value → Prop
  | .integer i => 0 ≤ i.toInt
  | .real x => x.negative = false ∧ ¬ Value.Bare x
  | .text _ => True

/-- Whether a comparison that was read comes back as it was. -/
structure Comparison.Kept (c : Comparison) : Prop where
  /-- Its field is a word. -/
  field : '\u0307' ∉ c.field.toList
  /-- Its literal comes back. -/
  literal : c.literal.Kept

namespace Comparison.Scanned

variable {c : Comparison}

/-- A legible literal that was read comes back the same exactly if it is kept. -/
theorem same_reread_iff (h : c.Scanned) (hlegible : c.literal.Legible) :
    c.literal.same c.literal.reread = true ↔ c.literal.Kept := by
  cases hv : c.literal with
  | integer i =>
      rw [hv] at hlegible
      rw [Value.reread_integer hlegible, Value.same, beq_self_eq_true]
      exact iff_of_true rfl hlegible
  | real x =>
      rw [hv] at hlegible
      by_cases hbare : Value.Bare x
      · rw [Value.reread_bare hlegible hbare]
        exact iff_of_false Bool.false_ne_true fun hkept => hkept.2 hbare
      · rw [Value.reread_real hlegible hbare, Value.same, Binary64.same, beq_self_eq_true]
        exact iff_of_true rfl ⟨hlegible, hbare⟩
  | text s =>
      have hreread := (h.text_literal hv).2
      rw [hv] at hreread
      rw [hreread, Value.same, beq_self_eq_true]
      exact iff_of_true rfl trivial

/-- A kept comparison comes back as it was. -/
theorem reread_of_kept (h : c.Scanned) (hkept : c.Kept) : c.reread = c := by
  have hliteral : c.literal.reread = c.literal := by
    have hv := hkept.literal
    cases hc : c.literal with
    | integer i =>
        rw [hc] at hv
        exact Value.reread_integer hv
    | real x =>
        rw [hc] at hv
        exact Value.reread_real hv.1 hv.2
    | text s =>
        have hreread := (h.text_literal hc).2
        rw [hc] at hreread
        exact hreread
  rw [Comparison.reread, hliteral]

/-- A kept comparison is legible. -/
theorem legible_of_kept (h : c.Scanned) (hkept : c.Kept) : c.literal.Legible := by
  have hv := hkept.literal
  cases hc : c.literal with
  | integer i =>
      rw [hc] at hv
      exact hv
  | real x =>
      rw [hc] at hv
      exact hv.1
  | text s => exact hc ▸ (h.text_literal hc).1

end Comparison.Scanned

/-- The text of a formula that was read is refused by the scanner, or read as the formula of its
tree. -/
theorem parseRule_text {text : String} {f : Formula} (h : parseRule text = .ok f) :
    f.Paired ∧ (∀ c ∈ f.comparisons, c.Scanned) ∧
    ((parseRule f.text = .ok f.chain.formula ∧
        ∀ c ∈ f.comparisons, '\u0307' ∉ c.field.toList ∧ c.literal.Legible) ∨
      ((∃ e, parseRule f.text = .error (.lex e)) ∧
        ∃ c ∈ f.comparisons, ¬ ('\u0307' ∉ c.field.toList ∧ c.literal.Legible))) := by
  obtain ⟨e, hl, rfl, hn⟩ := lexemes_of_parseRule h
  have hpaired := e.paired_formula
  have hscanned := e.scanned (lexes_of_lexemes? _ hl).scanned
  refine ⟨hpaired, hscanned, ?_⟩
  by_cases hbad : ∃ c ∈ e.formula.comparisons, ¬ ('\u0307' ∉ c.field.toList ∧ c.literal.Legible)
  · obtain ⟨c, hc, hbad⟩ := hbad
    have hfault : c.Faults :=
      (hscanned c hc).scans_iff.elim (fun hgood => absurd hgood.2 hbad) And.left
    have hlexemes := Formula.lexemes?_text_fault e.formula [] hpaired.one_le
      (fun d hd => (hscanned d hd).scans_iff.elim (fun hgood => Or.inl hgood.1)
        fun hfault => Or.inr hfault.1) ⟨c, hc, hfault⟩
    rw [List.append_nil] at hlexemes
    exact Or.inr ⟨parseRule_of_fault hlexemes, c, hc, hbad⟩
  · have hall : ∀ c ∈ e.formula.comparisons, '\u0307' ∉ c.field.toList ∧ c.literal.Legible :=
      fun c hc => Classical.byContradiction fun hc' => hbad ⟨c, hc, hc'⟩
    have hscans : ∀ c ∈ e.formula.comparisons, c.Scans := fun c hc =>
      (hscanned c hc).scans_iff.elim And.left fun hfault => absurd (hall c hc) hfault.2
    have hlexemes := Formula.lexemes?_text e.formula [] hpaired.one_le hscans
      fun c hc => by cases hc
    rw [List.append_nil, lexemes?_nil, Option.map_some, List.append_nil] at hlexemes
    rw [parseRule_of_lexemes hlexemes, if_pos (e.nesting_chain_formula.trans hn)]
    exact Or.inl ⟨rfl, hall⟩

/-- A formula that was read from a text comes back from its own text exactly if all its comparisons
are kept.  It comes back at all, perhaps with a whole number for a double, exactly if no field name
has a combining dot and no number a minus.  Its nesting is never what is in the way. -/
theorem reparse_eq_self_iff {text : String} {f : Formula} (h : parseRule text = .ok f) :
    (parseRule f.text = .ok f ↔ ∀ c ∈ f.comparisons, c.Kept) ∧
    ((∃ g, parseRule f.text = .ok g ∧ f.same g = true) ↔ ∀ c ∈ f.comparisons, c.Kept) ∧
    ((∃ g, parseRule f.text = .ok g) ↔
      ∀ c ∈ f.comparisons, '\u0307' ∉ c.field.toList ∧ c.literal.Legible) ∧
    parseRule f.text ≠ .error .tooDeep := by
  obtain ⟨hpaired, hscanned, ⟨hread, hlegible⟩ | ⟨⟨e, hread⟩, c, hc, hbad⟩⟩ := parseRule_text h
  · have hsame : f.same f.chain.formula = true ↔ ∀ c ∈ f.comparisons, c.Kept := by
      rw [hpaired.same_formula_chain]
      refine ⟨fun hall c hc => ⟨(hlegible c hc).1, ?_⟩, fun hall c hc => ?_⟩
      · exact ((hscanned c hc).same_reread_iff (hlegible c hc).2).mp (hall c hc)
      · exact ((hscanned c hc).same_reread_iff (hlegible c hc).2).mpr (hall c hc).literal
    have hself : (∀ c ∈ f.comparisons, c.Kept) → f.chain.formula = f := fun hall =>
      hpaired.formula_chain fun c hc => (hscanned c hc).reread_of_kept (hall c hc)
    refine ⟨⟨fun heq => ?_, fun hall => ?_⟩, ⟨?_, fun hall => ?_⟩, ?_, ?_⟩
    · rw [hread] at heq
      have hchain : f.chain.formula = f := Except.ok.inj heq
      exact hsame.mp (by rw [hchain]; exact hpaired.same_self)
    · rw [hread, hself hall]
    · rintro ⟨g, hg, hsame'⟩
      rw [hread] at hg
      cases hg
      exact hsame.mp hsame'
    · exact ⟨_, hread, hsame.mpr hall⟩
    · exact iff_of_true ⟨_, hread⟩ hlegible
    · rw [hread]
      exact fun heq => by cases heq
  · have hnot : ¬ ∀ c ∈ f.comparisons, c.Kept := fun hall =>
      hbad ⟨(hall c hc).field, (hscanned c hc).legible_of_kept (hall c hc)⟩
    have hfail : ∀ g, parseRule f.text ≠ .ok g := fun g hg => by
      rw [hread] at hg
      cases hg
    refine ⟨iff_of_false (hfail f) hnot, iff_of_false ?_ hnot, iff_of_false ?_ ?_, ?_⟩
    · rintro ⟨g, hg, -⟩
      exact hfail g hg
    · rintro ⟨g, hg⟩
      exact hfail g hg
    · exact fun hall => hbad (hall c hc)
    · rw [hread]
      exact fun heq => by cases heq

/-- A rule with a group, a capital letter, a double and a text with blanks at its ends. -/
theorem reparse_eq_self_group :
    ∃ f, parseRule "(A > 2.5 or b = ' x ') and c < 3" = .ok f ∧ (∀ c ∈ f.comparisons, c.Kept) ∧
      parseRule f.text = .ok f := by
  have htok : tokenize "(A > 2.5 or b = ' x ') and c < 3" = .ok [⟨.opening, 0⟩, ⟨.field "a", 1⟩,
      ⟨.comparator .gt, 3⟩, ⟨.value (.real (Binary64.ofQuotient false 5 2)), 5⟩,
      ⟨.connective .or, 9⟩, ⟨.field "b", 12⟩, ⟨.comparator .eq, 14⟩, ⟨.value (.text "x"), 16⟩,
      ⟨.closing, 21⟩, ⟨.connective .and, 23⟩, ⟨.field "c", 27⟩, ⟨.comparator .lt, 29⟩,
      ⟨.value (.integer 3), 31⟩] := by
    decide +kernel
  have hread : parseRule "(A > 2.5 or b = ' x ') and c < 3" = .ok (.joined .and
      [.joined .or [.leaf ⟨"a", .gt, .real (Binary64.ofQuotient false 5 2)⟩,
        .leaf ⟨"b", .eq, .text "x"⟩], .leaf ⟨"c", .lt, .integer 3⟩]) := by
    simp only [parseRule, htok]
    rfl
  have hkept : ∀ c ∈ ([⟨"a", .gt, .real (Binary64.ofQuotient false 5 2)⟩, ⟨"b", .eq, .text "x"⟩,
      ⟨"c", .lt, .integer 3⟩] : List Comparison), c.Kept := by
    have hsign : (Binary64.ofQuotient false 5 2).negative = false := by decide +kernel
    have hfraction : (Binary64.ofQuotient false 5 2).isWhole = false := by decide +kernel
    have hreal : Value.Kept (.real (Binary64.ofQuotient false 5 2)) := by
      refine ⟨hsign, fun hbare => ?_⟩
      rw [hbare.1] at hfraction
      cases hfraction
    have hinteger : Value.Kept (.integer 3) := by
      rw [Value.Kept]
      decide
    have hname : ∀ name ∈ ["a", "b", "c"], '\u0307' ∉ name.toList := by decide
    exact List.forall_mem_cons.mpr ⟨⟨hname "a" (by decide), hreal⟩,
      List.forall_mem_cons.mpr ⟨⟨hname "b" (by decide), trivial⟩,
        List.forall_mem_singleton.mpr ⟨hname "c" (by decide), hinteger⟩⟩⟩
  exact ⟨_, hread, hkept, (reparse_eq_self_iff hread).1.mpr hkept⟩

/-- A double of sixteen digits is written without a point, and read back as a whole number. -/
theorem not_reparse_eq_self :
    ¬ ∀ (text : String) (f : Formula), parseRule text = .ok f →
      ∃ g, parseRule f.text = .ok g ∧ f.same g = true := by
  have htok : tokenize "v = 1000000000000000.0" = .ok [⟨.field "v", 0⟩, ⟨.comparator .eq, 2⟩,
      ⟨.value (.real (Binary64.ofQuotient false (pow10 15) 1)), 4⟩] := by
    decide +kernel
  have hread : parseRule "v = 1000000000000000.0" =
      .ok (.leaf ⟨"v", .eq, .real (Binary64.ofQuotient false (pow10 15) 1)⟩) := by
    simp only [parseRule, htok]
    rfl
  have htext : Formula.text (.leaf ⟨"v", .eq, .real (Binary64.ofQuotient false (pow10 15) 1)⟩) =
      "v = 1000000000000000" := by
    decide +kernel
  have htok' : tokenize "v = 1000000000000000" = .ok [⟨.field "v", 0⟩, ⟨.comparator .eq, 2⟩,
      ⟨.value (.integer 1000000000000000), 4⟩] := by
    decide +kernel
  have hread' : parseRule "v = 1000000000000000" =
      .ok (.leaf ⟨"v", .eq, .integer 1000000000000000⟩) := by
    simp only [parseRule, htok']
    rfl
  intro hclaim
  obtain ⟨g, hg, hsame⟩ := hclaim _ _ hread
  rw [htext, hread'] at hg
  cases hg
  have hkinds : ∀ (x : Binary64) (i : Int64), (Value.real x).same (.integer i) = false :=
    fun x i => rfl
  rw [Formula.same, hkinds, Bool.and_false] at hsame
  cases hsame

end Rulebook
