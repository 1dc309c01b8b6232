import Mathlib.Data.List.Forall2
import Rulebook.Proofs.Collapse
import Rulebook.Proofs.Printing

/-!
# What is read from combined texts

Texts are combined by writing `AND` between them, and the scanner reads the result as one
text.  Three facts make that a combination of their chains.

*Clean texts* are in lower case already, so combining does not change them
(`lowered_clean`), and cleaning a clean text changes nothing (`clean_clean`).

*A blank separates.*  No word, numeral or quoted text runs over the blank between two texts
that lex, so the lexemes of the whole are those of the one and then those of the other
(`Lexes.append`).

*Chains concatenate.*  `Chain.append` puts a chain behind another with a connective at the
joint, and `Chain.joined` puts several behind each other with `AND`.  The primaries keep
their order and their parentheses.

`parseRule_combine` is the result.  A connective of one text takes in everything behind it,
later texts included, and the only way to fail is the nesting of the whole.
-/

namespace Rulebook

open Rulebook.Text (collapse gap isAlphanumeric isBlank lower lowered squeeze)
open Rulebook.Token (isNumeral)

/-! ## Clean texts -/

namespace Text

theorem squeeze_gap (owed : Bool) (cs : List Char) :
    squeeze false (gap owed ++ cs) = squeeze owed cs := by
  cases owed with
  | false => rfl
  | true => exact squeeze_blank false cs (by decide)

theorem squeeze_squeeze (owed : Bool) (cs : List Char) :
    squeeze false (squeeze owed cs) = squeeze owed cs := by
  induction cs generalizing owed with
  | nil => rfl
  | cons c cs ih =>
      cases hc : isBlank c with
      | true => rw [squeeze_blank owed cs hc, ih]
      | false => rw [squeeze_cons owed cs hc, squeeze_gap, squeeze_cons owed _ hc, ih]

theorem collapse_collapse (cs : List Char) : collapse (collapse cs) = collapse cs := by
  have hdrop : (collapse cs).dropWhile isBlank = collapse cs := by
    rw [collapse, dropWhile_squeeze, collapse, List.dropWhile_idempotent]
  rw [collapse, hdrop, collapse, squeeze_squeeze]

end Text

/-- A clean text is in lower case. -/
theorem lowered_clean (e : String) : lowered (clean e) = clean e := by
  have hsettled : ∀ c ∈ (clean e).toList, Text.Settled c := by
    rw [toList_clean]
    intro c hc
    cases hblank : isBlank c with
    | true => exact (Text.mark_of_isBlank hblank).settled
    | false => exact Text.settled_of_mem_lowerAfter ((Text.mem_collapse hblank _).mp hc)
  rw [lowered, lower, Text.lowerAfter_of_settled [] hsettled, String.ofList_toList]

theorem clean_clean (e : String) : clean (clean e) = clean e := by
  have hlower : lower (clean e).toList = (clean e).toList := by
    rw [← Text.toList_lowered, lowered_clean]
  rw [← String.toList_inj, toList_clean, hlower, toList_clean, Text.collapse_collapse]

/-! ## A blank separates -/

theorem ends_append_blank {p : Char → Bool} {cs ds : List Char} {c : Char} (h : Ends p cs)
    (hc : p c = false) : Ends p (cs ++ c :: ds) := by
  cases cs with
  | nil =>
      intro d hd
      cases hd
      exact hc
  | cons d cs => exact h

theorem not_isAlphanumeric_of_isBlank {c : Char} (h : isBlank c = true) :
    isAlphanumeric c = false := by
  rw [Bool.eq_false_iff]
  intro halpha
  rw [Text.not_isBlank_of_isAlphanumeric halpha] at h
  cases h

theorem not_isNumeral_of_isBlank {c : Char} (h : isBlank c = true) : isNumeral c = false := by
  rw [Bool.eq_false_iff]
  intro hnumeral
  rw [not_isBlank_of_isNumeral hnumeral] at h
  cases h

/-- Two texts with a blank between them have the lexemes of both. -/
theorem Lexes.append {cs ds : List Char} {ls ms : List Lexeme} {c : Char} (hcs : Lexes cs ls)
    (hc : isBlank c = true) (hds : Lexes ds ms) : Lexes (cs ++ c :: ds) (ls ++ ms) := by
  induction hcs with
  | nil => exact .blank hc hds
  | blank hb _ ih => exact .blank hb ih
  | mark hm _ ih => exact .mark hm ih
  | @quoted content cs ls hq _ ih =>
      have h := Lexes.quoted hq ih
      simpa using h
  | @word w cs ls hw hend _ ih =>
      -- a word that the first text ends with is not continued by the blank
      have h := Lexes.word hw (ends_append_blank hend (not_isAlphanumeric_of_isBlank hc)) ih
      rwa [← List.append_assoc] at h
  | @numeral d ds' cs ls hd hds' hend _ ih =>
      have h := Lexes.numeral hd hds' (ends_append_blank hend (not_isNumeral_of_isBlank hc)) ih
      rwa [← List.append_assoc] at h

/-- Two texts with `AND` between them. -/
theorem lexes_append_and {cs ds : List Char} {ls ms : List Lexeme} (hcs : Lexes cs ls)
    (hds : Lexes ds ms) : Lexes (cs ++ (" AND ".toList ++ ds)) (ls ++ .connective .and :: ms) := by
  have hkeyword : lexemes? (Connective.and.keyword.toList ++ ' ' :: ds) =
      some (.connective .and :: ms) := by
    rw [← lexemes?_blank _ (by decide : isBlank ' ' = true), Formula.lexemes?_keyword,
      hds.lexemes?]
    rfl
  exact hcs.append (by decide : isBlank ' ' = true) (lexes_of_lexemes? _ hkeyword)

/-! ## Chains behind each other -/

/-- A chain with another behind it and a connective at the joint. -/
def Chain.append (k : Connective) : Chain → Chain → Chain
  | .last p, e => .link p k e
  | .link p k' rest, e => .link p k' (rest.append k e)

/-- A chain with others behind it and `AND` at each joint. -/
def Chain.joined (e : Chain) : List Chain → Chain
  | [] => e
  | e' :: es => e.append .and (e'.joined es)

theorem Chain.lexemes_append (k : Connective) :
    ∀ e e' : Chain, (e.append k e').lexemes = e.lexemes ++ .connective k :: e'.lexemes
  | .last p, e' => by rw [Chain.append, Chain.lexemes, Chain.lexemes]
  | .link p k' rest, e' => by
      rw [Chain.append, Chain.lexemes, Chain.lexemes, Chain.lexemes_append k rest e']
      simp

/-! ## Texts and their chains -/

/-- Whether a chain derives the tokens of a text. -/
def Chain.DerivesText (e : Chain) (text : String) : Prop :=
  ∃ ts, tokenize text = .ok ts ∧ e.lexemes = ts.map (·.lexeme)

namespace Chain

theorem derivesText_iff {e : Chain} {text : String} :
    e.DerivesText text ↔ lexemes? text.toList = some e.lexemes := by
  constructor
  · rintro ⟨ts, htok, hts⟩
    rw [lexemes?_of_tokenize htok, hts]
  · intro h
    obtain ⟨ts, htok, hts⟩ := tokenize_of_lexemes h
    exact ⟨ts, htok, hts.symm⟩

/-- A text is derived by one chain at most. -/
theorem DerivesText.unique {e e' : Chain} {text : String} (h : e.DerivesText text)
    (h' : e'.DerivesText text) : e = e' := by
  rw [derivesText_iff] at h h'
  exact lexemes_inj (Option.some.inj (h.symm.trans h'))

theorem DerivesText.parseRule {e : Chain} {text : String} (h : e.DerivesText text) :
    parseRule text = if e.nesting ≤ maxNesting then .ok e.formula else .error .tooDeep :=
  parseRule_of_lexemes (derivesText_iff.mp h)

theorem exists_derivesText {text : String} {f : Formula} (h : parseRule text = .ok f) :
    ∃ e : Chain, e.DerivesText text := by
  obtain ⟨e, hl, -, -⟩ := lexemes_of_parseRule h
  exact ⟨e, derivesText_iff.mpr hl⟩

theorem exists_forall₂_derivesText {texts : List String}
    (h : ∀ t ∈ texts, ∃ f, parseRule t = .ok f) :
    ∃ es, List.Forall₂ DerivesText es texts := by
  induction texts with
  | nil => exact ⟨[], .nil⟩
  | cons t texts ih =>
      obtain ⟨f, hf⟩ := h t List.mem_cons_self
      obtain ⟨e, he⟩ := exists_derivesText hf
      obtain ⟨es, hes⟩ := ih fun t' ht' => h t' (List.mem_cons_of_mem t ht')
      exact ⟨e :: es, .cons he hes⟩

/-- Two lists of chains that derive the same texts are equal. -/
theorem eq_of_forall₂_derivesText {es es' : List Chain} {texts : List String}
    (h : List.Forall₂ DerivesText es texts) (h' : List.Forall₂ DerivesText es' texts) :
    es = es' := by
  induction h generalizing es' with
  | nil =>
      cases h'
      rfl
  | cons h _ ih =>
      obtain _ | ⟨hd, htl⟩ := h'
      rw [h.unique hd, ih htl]

/-- The chains of texts in lower case, put behind each other, derive the combined text. -/
theorem derivesText_combine {e : Chain} {es : List Chain} {text : String} {texts : List String}
    (h : e.DerivesText text) (hs : List.Forall₂ DerivesText es texts)
    (hlow : ∀ t ∈ text :: texts, lowered t = t) :
    (e.joined es).DerivesText (combine (text :: texts)) := by
  induction hs generalizing e text with
  | nil =>
      have hcombine : combine [text] = text := hlow text List.mem_cons_self
      rwa [hcombine, joined]
  | @cons e' text' es texts h' _ ih =>
      have hrest := ih h' fun t ht => hlow t (List.mem_cons_of_mem text ht)
      have hcombine : (combine (text :: text' :: texts)).toList =
          text.toList ++ (" AND ".toList ++ (combine (text' :: texts)).toList) := by
        rw [combine, List.map_cons, List.map_cons, hlow text List.mem_cons_self,
          String.intercalate_cons_cons, String.toList_append, String.toList_append, combine,
          List.map_cons, List.append_assoc]
      rw [derivesText_iff, lexemes?_eq_some_iff] at h hrest ⊢
      rw [joined, lexemes_append, hcombine]
      exact lexes_append_and h hrest

/-- Clean rule texts have chains that, put behind each other, derive the combined text. -/
theorem exists_joined {texts : List String} (hne : texts ≠ []) (hclean : ∀ t ∈ texts, clean t = t)
    (hread : ∀ t ∈ texts, ∃ f, parseRule t = .ok f) :
    ∃ e es, List.Forall₂ DerivesText (e :: es) texts ∧
      (e.joined es).DerivesText (combine texts) := by
  obtain ⟨es, hes⟩ := exists_forall₂_derivesText hread
  cases hes with
  | nil => exact absurd rfl hne
  | @cons e text es texts h hs =>
      refine ⟨e, es, .cons h hs, derivesText_combine h hs ?_⟩
      intro t ht
      rw [← hclean t ht, lowered_clean]

end Chain

/-- Clean rule texts combine into the text of one chain, which is their chains behind each other.
It is read as the formula of that chain unless it nests too deep, and it cannot fail otherwise. -/
theorem parseRule_combine {texts : List String} (hne : texts ≠ [])
    (hclean : ∀ t ∈ texts, clean t = t) (hread : ∀ t ∈ texts, ∃ f, parseRule t = .ok f) :
    ∃ e es, List.Forall₂ Chain.DerivesText (e :: es) texts ∧
      (∀ es', List.Forall₂ Chain.DerivesText es' texts → es' = e :: es) ∧
      (e.joined es).DerivesText (combine texts) ∧
      parseRule (combine texts) =
        if (e.joined es).nesting ≤ maxNesting then .ok (e.joined es).formula
        else .error .tooDeep := by
  obtain ⟨e, es, hes, hwhole⟩ := Chain.exists_joined hne hclean hread
  refine ⟨e, es, hes, ?_, hwhole, hwhole.parseRule⟩
  intro es' hes'
  exact Chain.eq_of_forall₂_derivesText hes' hes

/-- The `or` of a text takes in the text behind it. -/
theorem parseRule_combine_or :
    (∀ t ∈ ["a > 1 or b < 2", "c = 3"], clean t = t ∧ ∃ f, parseRule t = .ok f) ∧
    parseRule (combine ["a > 1 or b < 2", "c = 3"]) =
      .ok (.joined .or [.leaf ⟨"a", .gt, .integer 1⟩,
        .joined .and [.leaf ⟨"b", .lt, .integer 2⟩, .leaf ⟨"c", .eq, .integer 3⟩]]) := by
  let a : Primary := .comparison ⟨"a", .gt, .integer 1⟩
  let b : Primary := .comparison ⟨"b", .lt, .integer 2⟩
  let c : Primary := .comparison ⟨"c", .eq, .integer 3⟩
  have hfirst : (Chain.link a .or (.last b)).DerivesText "a > 1 or b < 2" :=
    ⟨[⟨.field "a", 0⟩, ⟨.comparator .gt, 2⟩, ⟨.value (.integer 1), 4⟩, ⟨.connective .or, 6⟩,
      ⟨.field "b", 9⟩, ⟨.comparator .lt, 11⟩, ⟨.value (.integer 2), 13⟩], by decide +kernel, rfl⟩
  have hsecond : (Chain.last c).DerivesText "c = 3" :=
    ⟨[⟨.field "c", 0⟩, ⟨.comparator .eq, 2⟩, ⟨.value (.integer 3), 4⟩], by decide +kernel, rfl⟩
  have hclean : ∀ t ∈ ["a > 1 or b < 2", "c = 3"], clean t = t := by decide +kernel
  have hread : ∀ t ∈ ["a > 1 or b < 2", "c = 3"], ∃ f, parseRule t = .ok f := by
    intro t ht
    simp only [List.mem_cons, List.not_mem_nil, or_false] at ht
    rcases ht with rfl | rfl
    · exact ⟨_, hfirst.parseRule⟩
    · exact ⟨_, hsecond.parseRule⟩
  refine ⟨fun t ht => ⟨hclean t ht, hread t ht⟩, ?_⟩
  obtain ⟨e, es, -, hunique, -, hparse⟩ := parseRule_combine (List.cons_ne_nil _ _) hclean hread
  cases hunique _ (.cons hfirst (.cons hsecond .nil))
  exact hparse

end Rulebook
