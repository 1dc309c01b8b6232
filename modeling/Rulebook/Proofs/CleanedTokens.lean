import Rulebook.Proofs.CleanText
import Rulebook.Proofs.Splitting

/-!
# The tokens of clean texts

A text is *plain* if it has neither of the two characters whose lower case is not one
character that is the same everywhere.  Cleaning a plain text changes each character by
itself and then squeezes the blanks.  So the clean text splits as the text does, place by
place: `Spelled.clean` says so of one lexeme, `Splits.clean` of all that the scanner splits
off, and `Halts.clean` of the place where it stops.

What a literal stands for is cleaned with the text (`Value.cleaned`), and nothing else
changes but the offsets.  `tokenize_clean` says this of the tokens and of the fault of a
text, and of the formula that the tokens make up.
-/

namespace Rulebook

open Rulebook.Text (IsWord collapse gap isAlphabetic isAlphanumeric isBlank lower lowerAfter
  lowerChar owes squeeze trim)
open Rulebook.Token (isNumeral width)

/-- What is wrong with a text, wherever it is: a character that begins no lexeme, or a quote. -/
def LexError.culprit : LexError → Option Char
  | .unterminated _ => none
  | .unexpected c _ => some c

/-- A literal whose text, if it is one, is cleaned. -/
def Value.cleaned : Value → Value
  | .text s => .text (clean s)
  | v => v

/-- A lexeme whose text, if it is the literal of one, is cleaned. -/
def Lexeme.cleaned : Lexeme → Lexeme
  | .value v => .value v.cleaned
  | l => l

/-- A comparison whose literal is cleaned. -/
def Comparison.cleaned (c : Comparison) : Comparison := ⟨c.field, c.comparator, c.literal.cleaned⟩

namespace Formula

mutual

/-- A formula whose literals are cleaned. -/
def cleaned : Formula → Formula
  | .leaf c => .leaf c.cleaned
  | .joined k parts => .joined k (cleanedAll parts)

/-- Formulas whose literals are cleaned. -/
def cleanedAll : List Formula → List Formula
  | [] => []
  | f :: fs => cleaned f :: cleanedAll fs

end

end Formula

theorem Lexeme.cleaned_of_not_value {l : Lexeme} (h : ∀ v, l ≠ .value v) : l.cleaned = l := by
  cases l with
  | value v => exact absurd rfl (h v)
  | _ => rfl

/-! ## Plain texts -/

namespace Text

/-- Whether every character of a text has one lower case, and that is one character. -/
def Plain (cs : List Char) : Prop := ∀ c ∈ cs, c ≠ 'Σ' ∧ c ≠ 'İ'

theorem Plain.left {cs ds : List Char} (h : Plain (cs ++ ds)) : Plain cs := fun c hc =>
  h c (List.mem_append_left ds hc)

theorem Plain.right {cs ds : List Char} (h : Plain (cs ++ ds)) : Plain ds := fun c hc =>
  h c (List.mem_append_right cs hc)

theorem Plain.lowerAfter_eq {cs : List Char} (h : Plain cs) (before : List Char) :
    lowerAfter before cs = cs.map lowerChar := by
  rw [← lowerWithin_nil, lowerWithin_eq_map before [] h]

theorem Plain.lower_eq {cs : List Char} (h : Plain cs) : lower cs = cs.map lowerChar :=
  h.lowerAfter_eq []

theorem lowerChar_of_not_isAlphabetic {c : Char} (h : isAlphabetic c = false) : lowerChar c = c :=
  (lowerChar_eq_iff h).mpr rfl

/-- A character stays of a kind that has all letters, or none. -/
theorem kind_lowerChar {p : Char → Bool} {b : Bool} (hp : ∀ c, isAlphabetic c = true → p c = b)
    (c : Char) : p (lowerChar c) = p c := by
  cases hc : isAlphabetic c with
  | true => rw [hp _ (isAlphabetic_lowerChar hc), hp c hc]
  | false => rw [lowerChar_of_not_isAlphabetic hc]

theorem isBlank_lowerChar (c : Char) : isBlank (lowerChar c) = isBlank c :=
  kind_lowerChar (fun _ hd => not_isBlank_of_isAlphanumeric (isAlphanumeric_of_isAlphabetic hd)) c

theorem isAlphanumeric_lowerChar (c : Char) : isAlphanumeric (lowerChar c) = isAlphanumeric c :=
  kind_lowerChar (fun _ hd => isAlphanumeric_of_isAlphabetic hd) c

/-- The lower case of a plain word is a word. -/
theorem IsWord.map_lowerChar {w : List Char} (h : IsWord w) : IsWord (w.map lowerChar) := by
  obtain ⟨c, cs, rfl, hc⟩ := h.head
  refine ⟨⟨lowerChar c, cs.map lowerChar, rfl, isAlphabetic_lowerChar hc⟩, fun d hd => ?_⟩
  obtain ⟨c', hc', rfl⟩ := List.mem_map.mp hd
  rw [isAlphanumeric_lowerChar]
  exact h.all c' hc'

/-- What is collapsed does not depend on the blanks at the ends. -/
theorem collapse_lower_trim (cs : List Char) :
    collapse (lower (trim cs)) = collapse (lower cs) := by
  obtain ⟨before, after, hcollapse, hbefore, hafter⟩ := exists_collapse_trim cs []
  rw [lower, lower, ← lowerWithin_nil [] cs, hcollapse,
    lowerWithin_eq_lower hbefore (hafter casedNext_nil), lower]

end Text

/-! ## Literals -/

theorem clean_ofList (cs : List Char) :
    clean (String.ofList cs) = String.ofList (collapse (lower cs)) := by
  rw [← String.toList_inj, toList_clean, String.toList_ofList, String.toList_ofList]

/-- The clean form of a literal without blanks at its ends stands for what it stood for, cleaned. -/
theorem Value.ofLiteral_collapse {t : List Char} (htrim : trim t = t) :
    ofLiteral (String.ofList (collapse (lower t))) = (ofLiteral (String.ofList t)).cleaned := by
  have h := Value.ofLiteral_clean htrim [] []
  rw [Text.lowerWithin_nil, ← lower] at h
  rw [h]
  cases hv : ofLiteral (String.ofList t) with
  | integer i => rfl
  | real x => rfl
  | text s =>
      obtain rfl := Value.eq_of_ofLiteral_text hv
      rw [withText, cleaned, clean_ofList]

/-- Cleaning makes no difference to a numeral. -/
theorem Value.cleaned_numeral {ds : List Char} (h : ∀ c ∈ ds, isNumeral c = true) :
    (ofLiteral (String.ofList ds)).cleaned = ofLiteral (String.ofList ds) := by
  cases hv : ofLiteral (String.ofList ds) with
  | integer i => rfl
  | real x => rfl
  | text s =>
      obtain rfl := Value.eq_of_ofLiteral_text hv
      rw [cleaned, clean_numeral h]

/-! ## One lexeme -/

/-- In a clean text a word is spelled where a word was. -/
theorem squeeze_word {w : List Char} (hw : IsWord w) (owed : Bool) (ds : List Char) :
    squeeze owed (w.map lowerChar ++ ds) = gap owed ++ (w.map lowerChar ++ squeeze false ds) := by
  have hblank : ∀ c ∈ w.map lowerChar, isBlank c = false := fun c hc =>
    Text.not_isBlank_of_isAlphanumeric (hw.map_lowerChar.all c hc)
  obtain ⟨c, cs, hcons, -⟩ := hw.map_lowerChar.head
  rw [hcons] at hblank ⊢
  exact Text.squeeze_append owed ds hblank

theorem lowerChar_eq_quote {c : Char} : lowerChar c = '\'' ↔ c = '\'' :=
  Text.lowerChar_eq_iff (by decide +kernel)

/-- Quotes stay, and no others come. -/
theorem quote_mem_squeeze_iff (owed : Bool) (cs : List Char) :
    '\'' ∈ squeeze owed (cs.map lowerChar) ↔ '\'' ∈ cs := by
  rw [Text.mem_squeeze (by decide), List.mem_map]
  constructor
  · rintro ⟨c, hc, heq⟩
    rwa [← lowerChar_eq_quote.mp heq]
  · exact fun h => ⟨_, h, lowerChar_eq_quote.mpr rfl⟩

theorem lowerChar_of_mem_marks {c : Char} {l : Lexeme} (h : (c, l) ∈ marks) : lowerChar c = c := by
  have table : ∀ m ∈ marks, isAlphabetic m.1 = false := by decide +kernel
  exact Text.lowerChar_of_not_isAlphabetic (table _ h)

/-- In a clean text a literal is in quotes where one was.  Its blanks at the ends may be fewer. -/
theorem clean_quoted {content : List Char} (hq : '\'' ∉ content) (hplain : Text.Plain content)
    (owed : Bool) (ds : List Char) : ∃ chars',
      squeeze owed (('\'' :: (content ++ ['\''])).map lowerChar ++ ds) =
        gap owed ++ (chars' ++ squeeze false ds) ∧
      Spelled chars' (squeeze false ds)
        (.value (Value.ofLiteral (String.ofList (trim content))).cleaned) := by
  have hblank : isBlank '\'' = false := by decide
  have hq' : '\'' ∉ squeeze false (content.map lowerChar) ++
      gap (owes false (content.map lowerChar)) := by
    rw [List.mem_append, not_or, quote_mem_squeeze_iff]
    refine ⟨hq, fun hmem => ?_⟩
    rw [Text.isBlank_of_mem_gap hmem] at hblank
    cases hblank
  have hspelled := Spelled.quoted hq' (squeeze false ds)
  rw [Text.trim_squeeze, ← hplain.lower_eq, ← Text.collapse_lower_trim,
    Value.ofLiteral_collapse (Text.trim_trim content)] at hspelled
  refine ⟨_, ?_, hspelled⟩
  rw [List.map_cons, List.map_append, List.map_singleton, lowerChar_eq_quote.mpr rfl,
    List.cons_append, List.append_assoc, List.singleton_append, Text.squeeze_cons owed _ hblank,
    Text.squeeze_append_cons _ hblank, hplain.lower_eq]
  simp only [List.append_assoc, List.cons_append, List.nil_append]

/-- Where a lexeme is spelled, the clean text spells what it stands for, cleaned. -/
theorem Spelled.clean {chars rest : List Char} {l : Lexeme} (h : Spelled chars rest l)
    (hplain : Text.Plain (chars ++ rest)) (owed : Bool) : ∃ chars',
      squeeze owed ((chars ++ rest).map lowerChar) =
        gap owed ++ (chars' ++ squeeze false (rest.map lowerChar)) ∧
      Spelled chars' (squeeze false (rest.map lowerChar)) l.cleaned := by
  have hends (hend : Ends isAlphanumeric rest) :
      Ends isAlphanumeric (squeeze false (rest.map lowerChar)) :=
    hplain.right.lowerAfter_eq [] ▸ ends_isAlphanumeric_clean hend []
  have hendsNumeral (hend : Ends isNumeral rest) :
      Ends isNumeral (squeeze false (rest.map lowerChar)) :=
    hplain.right.lowerAfter_eq [] ▸ ends_isNumeral_clean hend []
  rw [List.map_append]
  cases h with
  | @mark c l hc =>
      obtain ⟨hblank, hvalue, -⟩ := of_mem_marks hc
      rw [List.map_singleton, lowerChar_of_mem_marks hc, List.singleton_append,
        Text.squeeze_cons owed _ hblank, Lexeme.cleaned_of_not_value hvalue]
      exact ⟨[c], rfl, .mark hc _⟩
  | @quoted content hq =>
      exact clean_quoted hq (fun c hc => hplain c (by simp [hc])) owed _
  | keyword hw hend hk =>
      have hk' := (Text.ofKeyword?_lower chars).trans hk
      rw [hplain.left.lower_eq] at hk'
      have hkeyword := Spelled.keyword hw.map_lowerChar (hends hend) hk'
      exact ⟨chars.map lowerChar, squeeze_word hw owed _, hkeyword⟩
  | field hw hend hk =>
      have hk' := (Text.ofKeyword?_lower chars).trans hk
      rw [hplain.left.lower_eq] at hk'
      have hfield := Spelled.field hw.map_lowerChar (hends hend) hk'
      rw [← hplain.left.lower_eq, Text.lower_lower, hplain.left.lower_eq] at hfield
      rw [hplain.left.lower_eq]
      exact ⟨chars.map lowerChar, squeeze_word hw owed _, hfield⟩
  | @numeral d ds _ hd hds hend =>
      have hall : ∀ c ∈ d :: ds, isNumeral c = true :=
        List.forall_mem_cons.mpr ⟨isNumeral_of_isDigit hd, hds⟩
      have hmap : (d :: ds).map lowerChar = (d :: ds).map id := List.map_congr_left fun c hc =>
        Text.lowerChar_of_not_isAlphabetic (not_isAlphabetic_of_isNumeral (hall c hc))
      have hblank : ∀ c ∈ d :: ds, isBlank c = false := fun c hc =>
        not_isBlank_of_isNumeral (hall c hc)
      rw [hmap, List.map_id, Lexeme.cleaned, Value.cleaned_numeral hall]
      exact ⟨d :: ds, Text.squeeze_append owed _ hblank, .numeral hd hds (hendsNumeral hend)⟩

/-! ## All lexemes -/

theorem Splits.gap {after : List Char} {o : Nat} (owed : Bool) {cs : List Char} {ts : List Token}
    (h : Splits after (o + width (gap owed)) cs ts) : Splits after o (Text.gap owed ++ cs) ts := by
  cases owed with
  | false => exact h
  | true => exact .blank (by decide) h

/-- The clean text splits where the text does, into what the tokens stand for, cleaned. -/
theorem Splits.clean {after : List Char} {o : Nat} {before : List Char} {ts : List Token}
    (h : Splits after o before ts) (hafter : Ends isBlank after) :
    Text.Plain (before ++ after) → ∀ (owed : Bool) (o' : Nat), ∃ before' ts',
      squeeze owed ((before ++ after).map lowerChar) =
        before' ++ squeeze false (after.map lowerChar) ∧
      Splits (squeeze false (after.map lowerChar)) o' before' ts' ∧
      ts'.map (·.lexeme) = ts.map (·.lexeme.cleaned) := by
  induction h with
  | nil o =>
      intro _ owed o'
      cases after with
      | nil => exact ⟨[], [], rfl, .nil o', rfl⟩
      | cons c cs =>
          have hblank : isBlank (lowerChar c) = false := by
            rw [Text.isBlank_lowerChar]
            exact hafter c rfl
          refine ⟨Text.gap owed ++ [], [], ?_, .gap owed (.nil _), rfl⟩
          rw [List.nil_append, List.map_cons, Text.squeeze_cons owed _ hblank,
            Text.squeeze_cons false _ hblank, List.append_nil]
          rfl
  | @blank o c cs ts hc _ ih =>
      intro hplain owed o'
      have hc' : isBlank (lowerChar c) = true := by rwa [Text.isBlank_lowerChar]
      rw [List.cons_append, List.map_cons, Text.squeeze_blank owed _ hc']
      exact ih (fun d hd => hplain d (List.mem_cons_of_mem c hd)) true o'
  | @lexeme o chars cs l ts hl _ ih =>
      intro hplain owed o'
      rw [List.append_assoc] at hplain ⊢
      obtain ⟨chars', hsqueeze, hspelled⟩ := hl.clean hplain owed
      obtain ⟨before', ts', hrest, hsplits, hts⟩ := ih hplain.right false
        (o' + width (Text.gap owed) + width chars')
      refine ⟨Text.gap owed ++ (chars' ++ before'), ⟨l.cleaned, o' + width (Text.gap owed)⟩ :: ts',
        ?_, .gap owed (.lexeme ?_ hsplits), ?_⟩
      · rw [hsqueeze, hrest, List.append_assoc, List.append_assoc]
      · rwa [← hrest]
      · rw [List.map_cons, List.map_cons, hts]

/-- Where the text splits no further, the clean text does not either, for the same reason. -/
theorem Halts.clean {o : Nat} {after : List Char} {fault : Option LexError}
    (h : Halts o after fault) (o' : Nat) : ∃ fault',
      Halts o' (squeeze false (after.map lowerChar)) fault' ∧
      fault'.map LexError.culprit = fault.map LexError.culprit := by
  cases h with
  | finished => exact ⟨none, .finished, rfl⟩
  | @unexpected c cs hblank hquote hl =>
      have hkinds := (begins_iff cs hquote).not.mp hl
      have halpha : isAlphabetic c = false := by
        rw [Bool.eq_false_iff]
        exact fun h => hkinds (Or.inr (Or.inl h))
      refine ⟨some (.unexpected c o'), ?_, rfl⟩
      rw [List.map_cons, Text.lowerChar_of_not_isAlphabetic halpha,
        Text.squeeze_cons false _ hblank]
      exact .unexpected hblank hquote ((begins_iff _ hquote).not.mpr hkinds)
  | @unterminated cs hq =>
      refine ⟨some (.unterminated o'), ?_, rfl⟩
      rw [List.map_cons, lowerChar_eq_quote.mpr rfl, Text.squeeze_cons false _ (by decide)]
      exact .unterminated ((quote_mem_squeeze_iff false cs).not.mpr hq)

/-! ## Whole texts -/

theorem Halts.ends {o : Nat} {cs : List Char} {fault : Option LexError} (h : Halts o cs fault) :
    Ends isBlank cs := by
  intro c hc
  cases h with
  | finished => cases hc
  | unexpected hblank => cases hc; exact hblank
  | unterminated => cases hc; decide

/-- The clean text has what the tokens stand for, cleaned, and the same fault. -/
theorem tokensAndFault_clean {text : String} (hplain : Text.Plain text.toList) : ∃ ts fault,
    tokensAndFault (clean text) = (ts, fault) ∧
    ts.map (·.lexeme) = (tokensAndFault text).1.map (·.lexeme.cleaned) ∧
    fault.map LexError.culprit = (tokensAndFault text).2.map LexError.culprit := by
  -- cleaning drops the blanks in front, so the two are compared behind those
  have hkind : isBlank ∘ lowerChar = isBlank := funext Text.isBlank_lowerChar
  have hskip := scan_dropWhile 0 text.toList
  obtain ⟨before, after, ts₀, fault₀, htext, hsplits, hhalts⟩ := exists_splits
    (0 + width (text.toList.takeWhile isBlank)) (text.toList.dropWhile isBlank)
  have hscan : tokensAndFault text = (ts₀, fault₀) :=
    hskip.trans (scan_eq_iff.mpr ⟨before, after, htext, hsplits, hhalts⟩)
  have hplain' : Text.Plain (before ++ after) := fun c hc =>
    hplain c ((List.dropWhile_sublist _).subset (htext ▸ hc))
  obtain ⟨before', ts, hsqueeze, hsplits', hts⟩ := hsplits.clean hhalts.ends hplain' false 0
  obtain ⟨fault, hhalts', hfault⟩ := hhalts.clean (0 + width before')
  have hclean : (clean text).toList = before' ++ squeeze false (after.map lowerChar) := by
    rw [toList_clean, hplain.lower_eq, collapse, List.dropWhile_map, hkind, htext, hsqueeze]
  refine ⟨ts, fault, scan_eq_iff.mpr ⟨before', _, hclean, hsplits', hhalts'⟩, ?_, ?_⟩
  · rw [hts, hscan]
  · rw [hfault, hscan]

/-! ## Formulas -/

theorem Lexeme.alike_cleaned (l : Lexeme) : l.Alike (fun v w => w = v.cleaned) l.cleaned := by
  cases l with
  | value v => exact .value rfl
  | _ => exact .same nofun

theorem Lexeme.cleaned_alike (l : Lexeme) : l.cleaned.Alike (fun v w => v = w.cleaned) l := by
  cases l with
  | value v => exact .value rfl
  | _ => exact .same nofun

theorem Formula.Alike.eq_cleaned {f g : Formula}
    (h : f.Alike (Comparison.Alike fun v w => w = v.cleaned) g) : g = f.cleaned := by
  induction h with
  | @leaf c d h =>
      obtain ⟨field, comparator, literal⟩ := d
      obtain ⟨rfl, rfl, rfl⟩ := h
      rw [cleaned, Comparison.cleaned]
  | pair k _ _ ihf ihg => rw [ihf, ihg, cleaned, cleanedAll, cleanedAll, cleanedAll]

/-- Tokens that differ from others in cleaned literals only make up the cleaned formula, or none. -/
theorem Formula.ofTokens_cleaned {ts ts' : List Token}
    (h : ts'.map (·.lexeme) = ts.map (·.lexeme.cleaned)) :
    (ofTokens ts').toOption = (ofTokens ts).toOption.map cleaned := by
  have hforward : List.Forall₂ (Lexeme.Alike fun v w => w = v.cleaned) (lexemesOf ts)
      (lexemesOf ts') := by
    rw [lexemesOf, lexemesOf, h, List.forall₂_map_left_iff, List.forall₂_map_right_iff]
    exact List.forall₂_same.mpr fun t _ => t.lexeme.alike_cleaned
  have hback : List.Forall₂ (Lexeme.Alike fun v w => v = w.cleaned) (lexemesOf ts')
      (lexemesOf ts) := by
    rw [lexemesOf, lexemesOf, h, List.forall₂_map_left_iff, List.forall₂_map_right_iff]
    exact List.forall₂_same.mpr fun t _ => t.lexeme.cleaned_alike
  cases hts : ofTokens ts with
  | ok f =>
      obtain ⟨e, hl, rfl, hn⟩ := lexemes_of_ofTokens hts
      obtain ⟨e', hl', halike, hn'⟩ := e.exists_alike (hl ▸ hforward)
      rw [ofTokens_of_lexemes hl' (hn'.trans_le hn), halike.eq_cleaned]
      rfl
  | error err =>
      cases hts' : ofTokens ts' with
      | error err' => rfl
      | ok g =>
          obtain ⟨e, hl, -, hn⟩ := lexemes_of_ofTokens hts'
          obtain ⟨e', hl', -, hn'⟩ := e.exists_alike (hl ▸ hback)
          rw [ofTokens_of_lexemes hl' (hn'.trans_le hn)] at hts
          cases hts

/-- Cleaning changes nothing but literals and offsets.  If the lower case of every character of a
text is one character wherever it stands, the clean text has tokens exactly if the text has, and
they stand for the same but for the texts among them, which are cleaned.  Else the two have a
fault of one kind, at one character.  The formula of the clean text is that of the text with
its literals cleaned. -/
theorem tokenize_clean {text : String} (hdotted : 'İ' ∉ text.toList) (hsigma : 'Σ' ∉ text.toList) :
    (∀ ts, tokenize text = .ok ts → ∃ ts', tokenize (clean text) = .ok ts' ∧
      ts'.map (·.lexeme) = ts.map (·.lexeme.cleaned)) ∧
    (∀ e, tokenize text = .error e → ∃ e', tokenize (clean text) = .error e' ∧
      e'.culprit = e.culprit) ∧
    (parseRule (clean text)).toOption = (parseRule text).toOption.map Formula.cleaned := by
  have hplain : Text.Plain text.toList := fun c hc =>
    ⟨fun heq => hsigma (heq ▸ hc), fun heq => hdotted (heq ▸ hc)⟩
  obtain ⟨ts', fault', hclean, hts, hfault⟩ := tokensAndFault_clean hplain
  have hok : ∀ ts, tokenize text = .ok ts → ∃ ts', tokenize (clean text) = .ok ts' ∧
      ts'.map (·.lexeme) = ts.map (·.lexeme.cleaned) := by
    intro ts h
    rw [tokenize_eq_ok_iff.mp h] at hts hfault
    rw [Option.map_none, Option.map_eq_none_iff] at hfault
    subst hfault
    exact ⟨ts', tokenize_eq_ok_iff.mpr hclean, hts⟩
  have herror : ∀ e, tokenize text = .error e → ∃ e', tokenize (clean text) = .error e' ∧
      e'.culprit = e.culprit := by
    intro e h
    obtain ⟨ts, h⟩ := tokenize_eq_error_iff.mp h
    rw [h] at hfault
    obtain ⟨e', rfl, hculprit⟩ := Option.map_eq_some_iff.mp hfault
    exact ⟨e', tokenize_eq_error_iff.mpr ⟨ts', hclean⟩, hculprit⟩
  refine ⟨hok, herror, ?_⟩
  cases htext : tokenize text with
  | ok ts =>
      obtain ⟨ts', htext', hts⟩ := hok ts htext
      simp only [parseRule, htext, htext']
      exact Formula.ofTokens_cleaned hts
  | error e =>
      obtain ⟨e', htext', -⟩ := herror e htext
      simp only [parseRule, htext, htext']
      rfl

theorem tokenize_clean_blanks :
    'İ' ∉ " NAME  = 'Ada  L'".toList ∧ 'Σ' ∉ " NAME  = 'Ada  L'".toList ∧
    (∃ ts, tokenize (clean " NAME  = 'Ada  L'") = .ok ts ∧
      ts.map (·.lexeme) = [.field "name", .comparator .eq, .value (.text "ada l")]) ∧
    (parseRule (clean " NAME  = 'Ada  L'")).toOption =
      (parseRule " NAME  = 'Ada  L'").toOption.map Formula.cleaned := by
  have hdotted : 'İ' ∉ " NAME  = 'Ada  L'".toList := by decide
  have hsigma : 'Σ' ∉ " NAME  = 'Ada  L'".toList := by decide
  have htext : tokenize " NAME  = 'Ada  L'" =
      .ok [⟨.field "name", 1⟩, ⟨.comparator .eq, 7⟩, ⟨.value (.text "Ada  L"), 9⟩] :=
    tokenize_eq_ok_iff.mpr (by decide +kernel)
  obtain ⟨htokens, -, hparse⟩ := tokenize_clean hdotted hsigma
  obtain ⟨ts, hclean, hts⟩ := htokens _ htext
  exact ⟨hdotted, hsigma, ⟨ts, hclean, hts.trans (by decide +kernel)⟩, hparse⟩

end Rulebook
