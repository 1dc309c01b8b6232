import Rulebook.Proofs.Alike
import Rulebook.Proofs.CanonicalText
import Rulebook.Proofs.LiteralCase

/-!
# What is read from clean texts

Cleaning treats a rule as one run of characters, and the scanner then cuts the result.
`recovers_of_lexes` says what it cuts, lexeme by lexeme.  Parentheses, comparators,
connectives and numbers come out as they were.  A field comes out as it was too, unless a
combining dot in its name stops the scanner.  A text becomes its clean form.

There is one exception.  The lower case of a capital sigma depends on the letters around it,
and those may belong to the lexemes on either side.  The proof therefore goes along the rule
with two invariants.  `Grammatical` says that the lexemes to come may follow the one before,
which holds of the lexemes of every chain.  `Clear` says that no cased letter comes before
the next field or literal.  So only a text whose closing quote is touched by the next word
may become something else (`Value.Cleaned`).

`parseRule_clean` puts the lexemes together again.  The clean form of a rule is refused for
a combining dot, or is a formula of the same shape (`Formula.Alike`).
-/

namespace Rulebook

open Rulebook.Text (IsWord Mark casedNext collapse gap isAlphabetic isAlphanumeric isBlank isDigit
  lower lowerAfter lowerBetween lowerWithin owes squeeze trim)
open Rulebook.Token (isNumeral ofLiteral ofWord)

/-! ## The order of lexemes -/

/-- Whether a lexeme ends a primary. -/
def Lexeme.Closes : Lexeme → Prop
  | .closing | .value _ => True
  | _ => False

/-- Whether a primary may begin behind a lexeme, or at the beginning. -/
def Opens : Option Lexeme → Prop
  | none | some .opening | some (.connective _) => True
  | _ => False

/-- Whether a lexeme may stand behind another, or at the beginning. -/
def Follows : Option Lexeme → Lexeme → Prop
  | prev, .opening | prev, .field _ => Opens prev
  | prev, .comparator _ => ∃ name, prev = some (.field name)
  | prev, .value _ => ∃ c, prev = some (.comparator c)
  | prev, .closing | prev, .connective _ => ∃ l ∈ prev, l.Closes

/-- Whether lexemes may stand one after the other behind a lexeme, or at the beginning. -/
def Grammatical : Option Lexeme → List Lexeme → Prop
  | _, [] => True
  | prev, l :: ls => Follows prev l ∧ Grammatical (some l) ls

/-- Nothing but a comparator stands behind a field. -/
theorem comparator_of_follows {name : String} {l : Lexeme} (h : Follows (some (.field name)) l) :
    ∃ c, l = .comparator c := by
  cases l with
  | comparator c => exact ⟨c, rfl⟩
  | opening => cases h
  | field => cases h
  | value =>
      obtain ⟨c, hc⟩ := h
      cases hc
  | closing =>
      obtain ⟨l, hl, hclose⟩ := h
      cases hl
      cases hclose
  | connective =>
      obtain ⟨l, hl, hclose⟩ := h
      cases hl
      cases hclose

mutual

/-- The lexemes of a chain are in order. -/
theorem Chain.grammatical : ∀ (e : Chain) {prev : Option Lexeme} {ls : List Lexeme}, Opens prev →
    (∀ l : Lexeme, l.Closes → Grammatical (some l) ls) → Grammatical prev (e.lexemes ++ ls)
  | .last p, prev, ls, hprev, hls => by
      rw [Chain.lexemes]
      exact Primary.grammatical p hprev hls
  | .link p k rest, prev, ls, hprev, hls => by
      rw [Chain.lexemes, List.append_assoc, List.cons_append]
      refine Primary.grammatical p hprev fun l hl => ⟨⟨l, rfl, hl⟩, ?_⟩
      exact Chain.grammatical rest trivial hls

/-- The lexemes of a primary are in order. -/
theorem Primary.grammatical : ∀ (p : Primary) {prev : Option Lexeme} {ls : List Lexeme},
    Opens prev → (∀ l : Lexeme, l.Closes → Grammatical (some l) ls) →
      Grammatical prev (p.lexemes ++ ls)
  | .comparison c, prev, ls, hprev, hls => by
      rw [Primary.lexemes]
      exact ⟨hprev, ⟨c.field, rfl⟩, ⟨c.comparator, rfl⟩, hls (.value c.literal) trivial⟩
  | .group e, prev, ls, hprev, hls => by
      rw [Primary.lexemes, List.cons_append, List.append_assoc, List.singleton_append]
      refine ⟨hprev, Chain.grammatical e trivial fun l hl => ⟨⟨l, rfl, hl⟩, ?_⟩⟩
      exact hls .closing trivial

end

/-! ## Characters around a lexeme -/

theorem mark_of_mem_marks {c : Char} {l : Lexeme} (h : (c, l) ∈ marks) : Mark c := by
  have table : ∀ m ∈ marks, Text.isMarkCode m.1.toNat = true := by decide +kernel
  exact Text.mark_of_isMarkCode (table _ h)

/-- The lexemes of one character are no literals and no fields. -/
theorem of_mem_marks {c : Char} {l : Lexeme} (h : (c, l) ∈ marks) :
    isBlank c = false ∧ (∀ v, l ≠ .value v) ∧ ∀ name, l ≠ .field name := by
  simp only [marks, List.mem_cons, Prod.mk.injEq, List.not_mem_nil, or_false] at h
  obtain ⟨rfl, rfl⟩ | ⟨rfl, rfl⟩ | ⟨rfl, rfl⟩ | ⟨rfl, rfl⟩ | ⟨rfl, rfl⟩ := h
  all_goals
    refine ⟨by decide, fun v hv => ?_, fun name hname => ?_⟩
    · cases hv
    · cases hname

/-- No cased letter comes next before a comparator. -/
theorem casedNext_of_comparator {cs : List Char} {ls : List Lexeme} (h : Lexes cs ls)
    (hls : ∀ l ∈ ls.head?, ∃ c, l = .comparator c) : casedNext cs = false := by
  cases h with
  | nil => rfl
  | blank hc _ => exact Text.casedNext_mark _ (Text.mark_of_isBlank hc)
  | mark hc _ => exact Text.casedNext_mark _ (mark_of_mem_marks hc)
  | quoted _ _ =>
      obtain ⟨c, hc⟩ := hls _ rfl
      cases hc
  | @word w _ _ _ _ _ =>
      obtain ⟨c, hc⟩ := hls _ rfl
      rw [ofWord] at hc
      split at hc
      case h_1 => cases hc
      case h_2 => cases hc
  | numeral _ _ _ _ =>
      obtain ⟨c, hc⟩ := hls _ rfl
      cases hc

/-- Whether no cased letter comes before the next field or literal of a text. -/
def Clear : Option Lexeme → List Char → List Char → Prop
  | some (.field _), _, _ | some (.value _), _, _ | some .closing, _, _ => True
  | some (.connective _), before, cs => casedNext before = false ∨ Ends isAlphanumeric cs
  | _, before, _ => casedNext before = false

/-- Before a field no cased letter comes next: a connective that ended has a blank behind it. -/
theorem casedNext_of_opens {prev : Option Lexeme} {before w cs : List Char} (hprev : Opens prev)
    (hw : IsWord w) (h : Clear prev before (w ++ cs)) : casedNext before = false := by
  unfold Clear at h
  split at h
  · cases hprev
  · cases hprev
  · cases hprev
  · obtain ⟨c, rest, rfl, -⟩ := hw.head
    refine h.resolve_right fun hend => ?_
    have hc := hw.all c List.mem_cons_self
    rw [hend c rfl] at hc
    cases hc
  · exact h

theorem clear_of_casedNext {prev : Option Lexeme} {before : List Char} (cs : List Char)
    (h : casedNext before = false) : Clear prev before cs := by
  unfold Clear
  split
  · trivial
  · trivial
  · trivial
  · exact Or.inl h
  · exact h

/-! ## The first character of a clean text -/

theorem head?_squeeze : ∀ cs : List Char, ∀ c ∈ (squeeze true cs).head?, c = ' '
  | [], c, h => by cases h
  | d :: cs, c, h => by
      cases hd : isBlank d with
      | true =>
          rw [Text.squeeze_blank true cs hd] at h
          exact head?_squeeze cs c h
      | false =>
          rw [Text.squeeze_cons true cs hd] at h
          cases h
          rfl

theorem ends_squeeze {p : Char → Bool} (hspace : p ' ' = false) {cs : List Char} (h : Ends p cs) :
    Ends p (squeeze false cs) := by
  cases cs with
  | nil => exact h
  | cons c cs =>
      cases hc : isBlank c with
      | true =>
          rw [Text.squeeze_blank false cs hc]
          intro d hd
          rw [head?_squeeze cs d hd, hspace]
      | false =>
          rw [Text.squeeze_cons false cs hc]
          intro d hd
          cases hd
          exact h c rfl

/-- Only letters change in lower case, and they become letters. -/
theorem ends_lowerAfter {p : Char → Bool}
    (hp : ∀ c d, p c = false → isAlphabetic c = true → isAlphabetic d = true → p d = false)
    {cs : List Char} (h : Ends p cs) (before : List Char) : Ends p (lowerAfter before cs) := by
  cases cs with
  | nil => exact h
  | cons c cs =>
      rw [lowerAfter]
      cases hc : isAlphabetic c with
      | true =>
          obtain ⟨d, ds, hds, hd⟩ := Text.exists_lowerBetween_eq_cons hc before cs
          rw [hds]
          intro d' hd'
          cases hd'
          exact hp c d (h c rfl) hc hd
      | false =>
          rw [(Text.settled_of_not_isAlphabetic hc).lowerBetween_eq]
          intro d hd
          cases hd
          exact h c rfl

theorem ends_isAlphanumeric_clean {cs : List Char} (h : Ends isAlphanumeric cs)
    (before : List Char) : Ends isAlphanumeric (squeeze false (lowerAfter before cs)) := by
  refine ends_squeeze (by decide +kernel) (ends_lowerAfter (fun c d hc halpha => ?_) h before)
  rw [Text.isAlphanumeric_of_isAlphabetic halpha] at hc
  cases hc

theorem ends_isNumeral_clean {cs : List Char} (h : Ends isNumeral cs) (before : List Char) :
    Ends isNumeral (squeeze false (lowerAfter before cs)) := by
  refine ends_squeeze (by decide) (ends_lowerAfter (fun c d _ _ hd => ?_) h before)
  rw [Bool.eq_false_iff]
  intro hnumeral
  rw [not_isAlphabetic_of_isNumeral hnumeral] at hd
  cases hd

/-- Blanks in front of a text mean nothing. -/
theorem lexemes?_blanks : ∀ {blanks : List Char} (cs : List Char),
    (∀ c ∈ blanks, isBlank c = true) → lexemes? (blanks ++ cs) = lexemes? cs
  | [], _, _ => rfl
  | c :: blanks, cs, h => by
      rw [List.cons_append, lexemes?_blank _ (h c List.mem_cons_self)]
      exact lexemes?_blanks cs fun d hd => h d (List.mem_cons_of_mem c hd)

theorem lexemes?_gap (owed : Bool) (cs : List Char) : lexemes? (gap owed ++ cs) = lexemes? cs :=
  lexemes?_blanks cs fun _ => Text.isBlank_of_mem_gap

/-! ## What becomes of the lexemes -/

/-- What becomes of a literal of a rule when the text of the rule is cleaned. -/
inductive Value.Cleaned (rule : List Char) : Value → Value → Prop where
  /-- A number stays as it is. -/
  | number {v : Value} (hv : ∀ s, v ≠ .text s) : Cleaned rule v v
  /-- A text becomes its clean form. -/
  | text (s : String) : Cleaned rule (.text s) (.text (clean s))
  /-- If a letter comes right behind the closing quote, a text is lower-cased as what comes before
  that letter. -/
  | touched {before content after : List Char}
      (hrule : rule = before ++ '\'' :: (content ++ '\'' :: after)) (hq : '\'' ∉ content)
      (hafter : casedNext after = true) :
      Cleaned rule (.text (String.ofList (trim content)))
        (.text (String.ofList (collapse (lowerWithin [] content ('\'' :: after)))))

/-- Whether a lexeme is a field with a combining dot in its name. -/
def Lexeme.Dotted : Lexeme → Prop
  | .field name => '\u0307' ∈ name.toList
  | _ => False

/-- What the scanner may make of the clean form of a text with given lexemes: it stops at a dot if
there is one, and else finds the lexemes again. -/
def Recovers (rule : List Char) (ls : List Lexeme) : Option (List Lexeme) → Prop
  | none => ∃ l ∈ ls, l.Dotted
  | some ls' => (∀ l ∈ ls, ¬ l.Dotted) ∧ List.Forall₂ (Lexeme.Alike (Value.Cleaned rule)) ls ls'

theorem Recovers.cons {rule : List Char} {l l' : Lexeme} {ls : List Lexeme}
    {r : Option (List Lexeme)} (hl : ¬ l.Dotted) (h : l.Alike (Value.Cleaned rule) l')
    (hr : Recovers rule ls r) :
    Recovers rule (l :: ls) (r.map (l' :: ·)) := by
  cases r with
  | none =>
      obtain ⟨m, hm, hdot⟩ := hr
      exact ⟨m, List.mem_cons_of_mem l hm, hdot⟩
  | some ls' => exact ⟨List.forall_mem_cons.mpr ⟨hl, hr.1⟩, .cons h hr.2⟩

/-! ## Through a text -/

theorem casedNext_blanks {blanks : List Char} (h : ∀ c ∈ blanks, isBlank c = true)
    {cs : List Char} (hcs : casedNext cs = false) : casedNext (blanks ++ cs) = false := by
  cases blanks with
  | nil => exact hcs
  | cons c blanks => exact Text.casedNext_mark _ (Text.mark_of_isBlank (h c List.mem_cons_self))

/-- Blanks at the ends of what stands between quotes are lost. -/
theorem exists_collapse_trim (content after : List Char) : ∃ before' after',
    collapse (lowerWithin [] content after) =
      collapse (lowerWithin before' (trim content) after') ∧
    casedNext before' = false ∧ (casedNext after = false → casedNext after' = false) := by
  obtain ⟨pre, post, hsplit, hpre, hpost⟩ := Text.exists_trim content
  have hblanks : ∀ {blanks : List Char} (b a : List Char), (∀ c ∈ blanks, isBlank c = true) →
      lowerWithin b blanks a = blanks := fun b a h =>
    Text.lowerWithin_of_settled b a fun c hc => (Text.mark_of_isBlank (h c hc)).settled
  refine ⟨pre.reverse ++ [], post ++ after, ?_, ?_, casedNext_blanks hpost⟩
  · conv_lhs => rw [hsplit]
    rw [Text.lowerWithin_append, Text.lowerWithin_append, hblanks _ _ hpre, hblanks _ _ hpost,
      Text.collapse_append hpre hpost]
  · exact casedNext_blanks (fun c hc => hpre c (List.mem_reverse.mp hc)) Text.casedNext_nil

/-- What stands between quotes in a clean text. -/
theorem cleaned_quoted {rule before content after : List Char} (hbefore : casedNext before = false)
    (hrule : rule = before.reverse ++ '\'' :: (content ++ '\'' :: after)) (hq : '\'' ∉ content) :
    (ofLiteral (trim content)).Alike (Value.Cleaned rule) (ofLiteral
      (collapse (lowerWithin ('\'' :: before) content ('\'' :: after)))) := by
  have hquote : ∀ cs, casedNext ('\'' :: cs) = casedNext cs := fun cs =>
    Text.casedNext_ignorable cs (by decide +kernel)
  have hlower : lowerWithin ('\'' :: before) content ('\'' :: after) =
      lowerWithin [] content ('\'' :: after) :=
    Text.lowerWithin_congr rfl content
      ((hquote before).trans (hbefore.trans Text.casedNext_nil.symm))
  obtain ⟨before', after', hcollapse, hbefore', hafter'⟩ :=
    exists_collapse_trim content ('\'' :: after)
  have hclean := Value.ofLiteral_clean (Text.trim_trim content) before' after'
  rw [← hcollapse] at hclean
  refine .value ?_
  rw [hlower, hclean]
  cases hv : Value.ofLiteral (String.ofList (trim content)) with
  | integer i => exact .number fun s hs => by cases hs
  | real x => exact .number fun s hs => by cases hs
  | text s =>
      obtain rfl := Value.eq_of_ofLiteral_text hv
      cases hafter : casedNext after with
      | true => exact .touched hrule hq hafter
      | false =>
          have hstored : String.ofList (collapse (lowerWithin [] content ('\'' :: after))) =
              clean (String.ofList (trim content)) := by
            rw [← String.toList_inj, String.toList_ofList, toList_clean, String.toList_ofList,
              hcollapse, Text.lowerWithin_eq_lower hbefore' (hafter' ((hquote after).trans hafter))]
          rw [Value.withText, hstored]
          exact .text _

/-- What stands between quotes is found again, cleaned. -/
theorem recovers_quoted {rule before content after : List Char} {ls : List Lexeme} (owed : Bool)
    (hbefore : casedNext before = false)
    (hrule : rule = before.reverse ++ '\'' :: (content ++ '\'' :: after)) (hq : '\'' ∉ content)
    (h : ∀ before' : List Char, rule = before'.reverse ++ after →
      Recovers rule ls (lexemes? (squeeze false (lowerAfter before' after)))) :
    Recovers rule (ofLiteral (trim content) :: ls) (lexemes? (squeeze owed
      (lowerAfter before ('\'' :: (content ++ '\'' :: after))))) := by
  have hsettled : Text.Settled '\'' := Text.settled_of_not_isAlphabetic (by decide +kernel)
  have hblank : isBlank '\'' = false := by decide
  have hinside : '\'' ∉ squeeze false (lowerWithin ('\'' :: before) content ('\'' :: after)) ++
      gap (owes false (lowerWithin ('\'' :: before) content ('\'' :: after))) := by
    intro hmem
    obtain hmem | hmem := List.mem_append.mp hmem
    · rw [Text.mem_squeeze hblank] at hmem
      exact hq (Text.mem_of_mem_lowerWithin (by decide +kernel) (by decide) hmem)
    · rw [Text.isBlank_of_mem_gap hmem] at hblank
      cases hblank
  rw [Text.lowerAfter_cons hsettled, Text.lowerAfter_append, Text.lowerAfter_cons hsettled,
    Text.squeeze_cons owed _ hblank, lexemes?_gap, Text.squeeze_append_cons _ hblank,
    lexemes?_quoted _ hinside, Text.trim_squeeze]
  refine .cons (fun hdot => hdot) (cleaned_quoted hbefore hrule hq) (h _ ?_)
  rw [hrule]
  simp only [List.reverse_cons, List.reverse_append, List.reverse_reverse, List.append_assoc,
    List.cons_append, List.nil_append]

/-- A connective is found again, and so is a field without a combining dot. -/
theorem recovers_word {rule before w after : List Char} {ls : List Lexeme} (owed : Bool)
    (hw : IsWord w) (hend : Ends isAlphanumeric after)
    (hlower : lowerWithin before w after = lower w)
    (h : Recovers rule ls (lexemes? (squeeze false (lowerAfter (w.reverse ++ before) after)))) :
    Recovers rule (ofWord w :: ls) (lexemes? (squeeze owed (lowerAfter before (w ++ after)))) := by
  have hblank : ∀ d ∈ lower w, isBlank d = false := fun d hd => by
    rw [lower, ← Text.lowerWithin_nil] at hd
    exact Text.not_isBlank_of_mem_lowerWithin
      (fun c hc => Text.not_isBlank_of_isAlphanumeric (hw.all c hc)) hd
  have hsqueeze : squeeze owed (lower w ++ lowerAfter (w.reverse ++ before) after) =
      gap owed ++ (lower w ++ squeeze false (lowerAfter (w.reverse ++ before) after)) := by
    obtain ⟨d, ds, hcons, -⟩ := hw.exists_lower_eq_cons
    rw [hcons] at hblank ⊢
    exact Text.squeeze_append owed _ hblank
  rw [Text.lowerAfter_append, hlower, hsqueeze, lexemes?_gap]
  have hagain := ends_isAlphanumeric_clean hend (w.reverse ++ before)
  cases hkey : Connective.ofKeyword? (String.ofList w) with
  | some k =>
      have hword' : ofWord (lower w) = .connective k :=
        ofWord_of_keyword ((Text.ofKeyword?_lower w).trans hkey)
      rw [lexemes?_word _ (Text.isWord_lower_keyword hw hkey) hagain, ofWord_of_keyword hkey,
        hword']
      exact .cons (fun hdot => hdot) (.same fun v hv => by cases hv) h
  | none =>
      have hword := ofWord_of_not_keyword hkey
      have hword' := ofWord_of_not_keyword ((Text.ofKeyword?_lower w).trans hkey)
      rw [Text.lower_lower] at hword'
      by_cases hdot : '\u0307' ∈ lower w
      · rw [lexemes?_dotted hw hdot, hword]
        refine ⟨_, List.mem_cons_self, ?_⟩
        rw [Lexeme.Dotted, String.toList_ofList]
        exact hdot
      · rw [lexemes?_word _ (hw.lower hdot) hagain, hword, hword']
        refine .cons ?_ (.same fun v hv => by cases hv) h
        rw [Lexeme.Dotted, String.toList_ofList]
        exact hdot

/-- A numeral is its own clean form. -/
theorem clean_numeral {ds : List Char} (h : ∀ c ∈ ds, isNumeral c = true) :
    clean (String.ofList ds) = String.ofList ds := by
  have hlower : lower ds = ds := Text.lowerAfter_of_settled [] fun c hc =>
    Text.settled_of_not_isAlphabetic (not_isAlphabetic_of_isNumeral (h c hc))
  have hblank : ∀ c ∈ ds, isBlank c = false := fun c hc => not_isBlank_of_isNumeral (h c hc)
  rw [← String.toList_inj, toList_clean, String.toList_ofList, hlower,
    Text.collapse_of_not_blank hblank]

/-- A numeral is found again. -/
theorem recovers_numeral {rule before ds after : List Char} {d : Char} {ls : List Lexeme}
    (owed : Bool) (hd : isDigit d = true) (hds : ∀ c ∈ ds, isNumeral c = true)
    (hend : Ends isNumeral after)
    (h : Recovers rule ls
      (lexemes? (squeeze false (lowerAfter ((d :: ds).reverse ++ before) after)))) :
    Recovers rule (ofLiteral (d :: ds) :: ls)
      (lexemes? (squeeze owed (lowerAfter before (d :: ds ++ after)))) := by
  have hall : ∀ c ∈ d :: ds, isNumeral c = true :=
    List.forall_mem_cons.mpr ⟨isNumeral_of_isDigit hd, hds⟩
  have hsame : ∀ {b a : List Char}, lowerWithin b (d :: ds) a = d :: ds := fun {b a} =>
    Text.lowerWithin_of_settled b a fun c hc =>
      Text.settled_of_not_isAlphabetic (not_isAlphabetic_of_isNumeral (hall c hc))
  have hblank : ∀ c ∈ d :: ds, isBlank c = false := fun c hc => not_isBlank_of_isNumeral (hall c hc)
  rw [Text.lowerAfter_append, hsame, Text.squeeze_append owed _ hblank, lexemes?_gap,
    lexemes?_numeral _ hd hds (ends_isNumeral_clean hend _)]
  refine .cons (fun hdot => hdot) (.value ?_) h
  cases hv : Value.ofLiteral (String.ofList (d :: ds)) with
  | integer i => exact .number fun s hs => by cases hs
  | real x => exact .number fun s hs => by cases hs
  | text s =>
      obtain rfl := Value.eq_of_ofLiteral_text hv
      conv_rhs => rw [← clean_numeral hall]
      exact .text _

/-- The clean form of what is left of a text has the lexemes that are left. -/
theorem recovers_of_lexes {rule cs : List Char} {ls : List Lexeme} (h : Lexes cs ls) :
    ∀ {prev : Option Lexeme} {before : List Char} (owed : Bool), Grammatical prev ls →
      Clear prev before cs → rule = before.reverse ++ cs →
        Recovers rule ls (lexemes? (squeeze owed (lowerAfter before cs))) := by
  induction h with
  | nil =>
      intro prev before owed _ _ _
      rw [lowerAfter, squeeze, lexemes?_nil]
      exact ⟨fun l hl => absurd hl List.not_mem_nil, .nil⟩
  | @blank c cs ls hc _ ih =>
      intro prev before owed hgrammar _ hrule
      have hmark := Text.mark_of_isBlank hc
      rw [Text.lowerAfter_cons hmark.settled, Text.squeeze_blank owed _ hc]
      refine ih true hgrammar (clear_of_casedNext cs (Text.casedNext_mark before hmark)) ?_
      rw [hrule, List.reverse_cons, List.append_assoc]
      rfl
  | @mark c l cs ls hc _ ih =>
      intro prev before owed hgrammar _ hrule
      have hmark := mark_of_mem_marks hc
      obtain ⟨hblank, hvalue, hfield⟩ := of_mem_marks hc
      rw [Text.lowerAfter_cons hmark.settled, Text.squeeze_cons owed _ hblank, lexemes?_gap,
        lexemes?_mark _ hc]
      refine .cons (fun hdot => ?_) (.same hvalue) (ih false hgrammar.2 ?_ ?_)
      · unfold Lexeme.Dotted at hdot
        split at hdot
        · exact hfield _ rfl
        · exact hdot
      · exact clear_of_casedNext cs (Text.casedNext_mark before hmark)
      · rw [hrule, List.reverse_cons, List.append_assoc]
        rfl
  | @quoted content cs ls hq _ ih =>
      intro prev before owed hgrammar hclear hrule
      obtain ⟨c, rfl⟩ := hgrammar.1
      exact recovers_quoted owed hclear hrule hq fun before' hrule' =>
        ih false hgrammar.2 trivial hrule'
  | @word w cs ls hw hend hcs ih =>
      intro prev before owed hgrammar hclear hrule
      have hrule' : rule = (w.reverse ++ before).reverse ++ cs := by
        rw [hrule, List.reverse_append, List.reverse_reverse, List.append_assoc]
      cases hkey : Connective.ofKeyword? (String.ofList w) with
      | some k =>
          rw [ofWord_of_keyword hkey] at hgrammar
          exact recovers_word owed hw hend (Text.lowerWithin_keyword hkey before cs)
            (ih false hgrammar.2 (Or.inr hend) hrule')
      | none =>
          rw [ofWord_of_not_keyword hkey] at hgrammar
          have hbefore := casedNext_of_opens hgrammar.1 hw hclear
          have hafter : casedNext cs = false := by
            refine casedNext_of_comparator hcs fun l hl => ?_
            obtain ⟨ls', rfl⟩ := List.head?_eq_some_iff.mp hl
            exact comparator_of_follows hgrammar.2.1
          exact recovers_word owed hw hend (Text.lowerWithin_eq_lower hbefore hafter w)
            (ih false hgrammar.2 trivial hrule')
  | @numeral d ds cs ls hd hds hend _ ih =>
      intro prev before owed hgrammar _ hrule
      obtain ⟨c, rfl⟩ := hgrammar.1
      refine recovers_numeral owed hd hds hend (ih false hgrammar.2 trivial ?_)
      rw [hrule, List.reverse_append, List.reverse_reverse, List.append_assoc]

/-! ## Formulas -/

mutual

/-- The fields among the lexemes of a chain are those of its comparisons. -/
theorem Chain.exists_dotted : ∀ e : Chain, (∃ l ∈ e.lexemes, l.Dotted) ↔
    ∃ c ∈ e.formula.comparisons, '\u0307' ∈ c.field.toList
  | .last p => by
      rw [Chain.lexemes, Chain.formula]
      exact Primary.exists_dotted p
  | .link p k rest => by
      rw [Chain.lexemes, Chain.formula, Formula.comparisons_pair]
      simp only [List.mem_append, List.mem_cons, or_and_right, exists_or, exists_eq_left,
        Primary.exists_dotted p, Chain.exists_dotted rest]
      exact or_congr_right (or_iff_right fun hdot => hdot)

/-- The fields among the lexemes of a primary are those of its comparisons. -/
theorem Primary.exists_dotted : ∀ p : Primary, (∃ l ∈ p.lexemes, l.Dotted) ↔
    ∃ c ∈ p.formula.comparisons, '\u0307' ∈ c.field.toList
  | .comparison c => by
      rw [Primary.lexemes, Primary.formula, Formula.comparisons]
      simp only [List.mem_cons, List.not_mem_nil, or_false, or_and_right, exists_or, exists_eq_left]
      exact or_iff_left fun h => h.elim id id
  | .group e => by
      rw [Primary.lexemes, Primary.formula]
      simp only [List.mem_cons, List.mem_append, List.not_mem_nil, or_false, or_and_right,
        exists_or, exists_eq_left, Chain.exists_dotted e]
      exact (or_iff_right fun hdot => hdot).trans (or_iff_left fun hdot => hdot)

end

/-- The clean form of a rule text is refused by the scanner if a field has a combining dot in its
name, and else is a formula like that of the text with the literals cleaned. -/
theorem parseRule_clean {text : String} {f : Formula} (h : parseRule text = .ok f) :
    ((∃ c ∈ f.comparisons, '\u0307' ∈ c.field.toList) ∧
        ∃ e, parseRule (clean text) = .error (.lex e)) ∨
      ((∀ c ∈ f.comparisons, '\u0307' ∉ c.field.toList) ∧
        ∃ g, parseRule (clean text) = .ok g ∧
          f.Alike (Comparison.Alike (Value.Cleaned text.toList)) g) := by
  obtain ⟨e, hl, rfl, hn⟩ := lexemes_of_parseRule h
  have hgrammar : Grammatical none e.lexemes := by
    have h : Grammatical none (e.lexemes ++ []) := e.grammatical trivial fun _ _ => trivial
    rwa [List.append_nil] at h
  have hrecovers : Recovers text.toList e.lexemes
      (lexemes? (squeeze false (lowerAfter [] text.toList))) :=
    recovers_of_lexes (lexes_of_lexemes? _ hl) false hgrammar Text.casedNext_nil rfl
  have hclean : lexemes? (clean text).toList = lexemes? (squeeze false (lower text.toList)) := by
    rw [toList_clean, ← Text.dropWhile_squeeze false]
    conv_rhs => rw [← List.takeWhile_append_dropWhile (p := isBlank)
      (l := squeeze false (lower text.toList))]
    rw [lexemes?_blanks _ fun c hc => List.mem_takeWhile_imp hc]
  rw [← lower, ← hclean] at hrecovers
  cases hls : lexemes? (clean text).toList with
  | none =>
      rw [hls] at hrecovers
      exact Or.inl ⟨e.exists_dotted.mp hrecovers, parseRule_of_fault hls⟩
  | some ls =>
      rw [hls] at hrecovers
      obtain ⟨hdots, halike⟩ := hrecovers
      obtain ⟨e', rfl, hf, hn'⟩ := e.exists_alike halike
      refine Or.inr ⟨fun c hc hdot => ?_, e'.formula, ?_, hf⟩
      · obtain ⟨l, hl, hdot⟩ := e.exists_dotted.mpr ⟨c, hc, hdot⟩
        exact hdots l hl hdot
      · rw [parseRule_of_lexemes hls, if_pos (hn'.trans_le hn)]

end Rulebook
