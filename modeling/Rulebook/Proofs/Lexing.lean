import Mathlib.Data.List.TakeWhile
import Rulebook.Proofs.Grammar
import Rulebook.Proofs.LetterCase

/-!
# What the scanner cuts

`Spelled chars rest l` says that `chars` are a way to write the lexeme `l` if `rest` stands
behind them.  A word and a numeral must end there: the next character cannot continue them.
So at most one lexeme is spelled at the front of a text, and the scanner cuts it
(`Spelled.cut_eq`).  Where none is, the scanner finds a fault (`exists_cut_error`).

`Lexes cs ls` says that the text `cs` is made of the lexemes `ls` with blanks between
them, and each of its rules is one kind of lexeme.

`lexemes?` is what the scanner makes of a text when the offsets are dropped.  It has one
equation for each rule, and `lexemes?_eq_some_iff` says that it finds exactly what the
rules allow.  A text that lexes can be taken apart by induction on `Lexes`; a text that
is put together from lexemes is scanned by the equations, also where it does not lex.

`parseRule_of_lexemes` joins the scanner and the parser: a text that has the lexemes of
a chain is the formula of the chain, unless the chain nests too deep.
-/

namespace Rulebook

open Rulebook.Text (IsWord isAlphabetic isAlphanumeric isBlank isDigit
  not_isBlank_of_isAlphanumeric)
open Rulebook.Token (cut isNumeral ofLiteral ofWord scan)

/-- The lexemes that are one character. -/
def marks : List (Char × Lexeme) :=
  [('(', .opening), (')', .closing), ('>', .comparator .gt), ('<', .comparator .lt),
    ('=', .comparator .eq)]

/-- A text that does not begin with a character of a kind. -/
def Ends (p : Char → Bool) (cs : List Char) : Prop := ∀ c ∈ cs.head?, p c = false

/-- The ways to write a lexeme in front of what follows it. -/
inductive Spelled : List Char → List Char → Lexeme → Prop where
  /-- A lexeme of one character. -/
  | mark {c : Char} {l : Lexeme} (hc : (c, l) ∈ marks) (rest : List Char) : Spelled [c] rest l
  /-- A literal in quotes, without the blanks at its ends. -/
  | quoted {content : List Char} (hq : '\'' ∉ content) (rest : List Char) :
      Spelled ('\'' :: (content ++ ['\''])) rest
        (.value (Value.ofLiteral (String.ofList (Text.trim content))))
  /-- A connective: a word that is a keyword. -/
  | keyword {w rest : List Char} {k : Connective} (hw : IsWord w) (hend : Ends isAlphanumeric rest)
      (hk : Connective.ofKeyword? (String.ofList w) = some k) : Spelled w rest (.connective k)
  /-- A field: any other word, in lower case. -/
  | field {w rest : List Char} (hw : IsWord w) (hend : Ends isAlphanumeric rest)
      (hk : Connective.ofKeyword? (String.ofList w) = none) :
      Spelled w rest (.field (String.ofList (Text.lower w)))
  /-- A literal without quotes. -/
  | numeral {d : Char} {ds rest : List Char} (hd : isDigit d = true)
      (hds : ∀ c ∈ ds, isNumeral c = true) (hend : Ends isNumeral rest) :
      Spelled (d :: ds) rest (.value (Value.ofLiteral (String.ofList (d :: ds))))

/-- Whether a text begins with a lexeme. -/
def Begins (cs : List Char) : Prop := ∃ chars rest l, cs = chars ++ rest ∧ Spelled chars rest l

/-- The ways to make up a text of lexemes. -/
inductive Lexes : List Char → List Lexeme → Prop where
  /-- The empty text has no lexemes. -/
  | nil : Lexes [] []
  /-- A blank means nothing. -/
  | blank {c : Char} {cs : List Char} {ls : List Lexeme} (hc : isBlank c = true) (h : Lexes cs ls) :
      Lexes (c :: cs) ls
  /-- A lexeme of one character. -/
  | mark {c : Char} {l : Lexeme} {cs : List Char} {ls : List Lexeme} (hc : (c, l) ∈ marks)
      (h : Lexes cs ls) : Lexes (c :: cs) (l :: ls)
  /-- A literal in quotes. -/
  | quoted {content cs : List Char} {ls : List Lexeme} (hq : '\'' ∉ content) (h : Lexes cs ls) :
      Lexes ('\'' :: (content ++ '\'' :: cs)) (ofLiteral (Text.trim content) :: ls)
  /-- A field or a connective. -/
  | word {w cs : List Char} {ls : List Lexeme} (hw : IsWord w) (hend : Ends isAlphanumeric cs)
      (h : Lexes cs ls) : Lexes (w ++ cs) (ofWord w :: ls)
  /-- A literal without quotes. -/
  | numeral {d : Char} {ds cs : List Char} {ls : List Lexeme} (hd : isDigit d = true)
      (hds : ∀ c ∈ ds, isNumeral c = true) (hend : Ends isNumeral cs) (h : Lexes cs ls) :
      Lexes (d :: ds ++ cs) (ofLiteral (d :: ds) :: ls)

/-- The lexemes of a scan, unless it met a fault. -/
def lexemesOfScan : List Token × Option LexError → Option (List Lexeme)
  | (ts, none) => some (ts.map (·.lexeme))
  | (_, some _) => none

/-- The lexemes of a text, unless the text has a fault. -/
def lexemes? (cs : List Char) : Option (List Lexeme) := lexemesOfScan (scan 0 cs)

/-! ## One cut -/

theorem scan_blank (o : Nat) {c : Char} (cs : List Char) (hc : isBlank c = true) :
    scan o (c :: cs) = scan (o + c.utf8Size) cs := by
  rw [scan, if_pos hc]

/-- A scan that cuts a lexeme goes on behind it. -/
theorem scan_cut {o : Nat} {c : Char} {cs : List Char} {k : Token.Cut} (hc : isBlank c = false)
    (hk : cut o c cs = .ok k) : scan o (c :: cs) =
      (⟨k.lexeme, o⟩ :: (scan (o + k.width) k.rest).1, (scan (o + k.width) k.rest).2) := by
  rw [scan, if_neg (by simp [hc])]
  split
  case h_1 e he => rw [hk] at he; cases he
  case h_2 k' he =>
    rw [hk] at he
    cases he
    rfl

theorem scan_fault {o : Nat} {c : Char} {cs : List Char} {e : LexError} (hc : isBlank c = false)
    (he : cut o c cs = .error e) : scan o (c :: cs) = ([], some e) := by
  rw [scan, if_neg (by simp [hc])]
  split
  case h_1 e' he' => rw [he] at he'; cases he'; rfl
  case h_2 k hk => rw [he] at hk; cases hk

/-- Blanks in front are passed over one by one, or at once. -/
theorem scan_dropWhile :
    ∀ (o : Nat) (cs : List Char),
      scan o cs = scan (o + Token.width (cs.takeWhile isBlank)) (cs.dropWhile isBlank)
  | _, [] => rfl
  | o, c :: cs => by
      cases hc : isBlank c with
      | true =>
          rw [scan_blank o cs hc, scan_dropWhile, List.takeWhile_cons_of_pos hc,
            List.dropWhile_cons_of_pos hc, Token.width, Nat.add_assoc]
      | false =>
          rw [List.takeWhile_cons_of_neg (by simp [hc]), List.dropWhile_cons_of_neg (by simp [hc])]
          rfl

theorem lexemesOfScan_cons (t : Token) (ts : List Token) (fault : Option LexError) :
    lexemesOfScan (t :: ts, fault) = (lexemesOfScan (ts, fault)).map (t.lexeme :: ·) := by
  cases fault with
  | none => rfl
  | some e => rfl

/-- The same is cut at any offset, or nothing is. -/
theorem cut_offset (o o' : Nat) (c : Char) (cs : List Char) :
    (∃ k, cut o c cs = .ok k ∧ cut o' c cs = .ok k) ∨
      ((∃ e, cut o c cs = .error e) ∧ ∃ e, cut o' c cs = .error e) := by
  unfold cut
  repeat' split
  all_goals first
    | exact Or.inl ⟨_, rfl, rfl⟩
    | exact Or.inr ⟨⟨_, rfl⟩, _, rfl⟩

/-- The lexemes of a text do not depend on the offset it begins at. -/
theorem lexemesOfScan_offset (o o' : Nat) :
    ∀ cs : List Char, lexemesOfScan (scan o cs) = lexemesOfScan (scan o' cs)
  | [] => by rw [scan, scan]
  | c :: cs => by
      cases hc : isBlank c with
      | true =>
          rw [scan_blank o cs hc, scan_blank o' cs hc]
          exact lexemesOfScan_offset _ _ cs
      | false =>
          obtain ⟨k, hk, hk'⟩ | ⟨⟨e, he⟩, e', he'⟩ := cut_offset o o' c cs
          · have := Token.length_rest_le hk
            rw [scan_cut hc hk, scan_cut hc hk', lexemesOfScan_cons, lexemesOfScan_cons]
            exact congrArg _ (lexemesOfScan_offset _ _ k.rest)
          · rw [scan_fault hc he, scan_fault hc he']
            rfl
termination_by cs => cs.length

/-! ## The equations of `lexemes?` -/

theorem lexemes?_nil : lexemes? [] = some [] := by
  rw [lexemes?, scan]
  rfl

theorem lexemes?_blank {c : Char} (cs : List Char) (hc : isBlank c = true) :
    lexemes? (c :: cs) = lexemes? cs := by
  rw [lexemes?, scan_blank 0 cs hc]
  exact lexemesOfScan_offset _ _ cs

theorem lexemes?_cut {c : Char} {cs : List Char} {k : Token.Cut} (hc : isBlank c = false)
    (hk : cut 0 c cs = .ok k) : lexemes? (c :: cs) = (lexemes? k.rest).map (k.lexeme :: ·) := by
  rw [lexemes?, scan_cut hc hk, lexemesOfScan_cons]
  exact congrArg _ (lexemesOfScan_offset _ _ k.rest)

theorem lexemes?_fault {c : Char} {cs : List Char} {e : LexError} (hc : isBlank c = false)
    (he : cut 0 c cs = .error e) : lexemes? (c :: cs) = none := by
  rw [lexemes?, scan_fault hc he]
  rfl

/-! ## Spellings and cuts -/

/-- What stands before the first character of another kind is taken. -/
theorem takeWhile_append_of_ends {p : Char → Bool} {cs rest : List Char}
    (h : ∀ c ∈ cs, p c = true) (hend : Ends p rest) :
    (cs ++ rest).takeWhile p = cs ∧ (cs ++ rest).dropWhile p = rest := by
  rw [List.takeWhile_append_of_pos h, List.dropWhile_append_of_pos h]
  cases rest with
  | nil => exact ⟨List.append_nil cs, rfl⟩
  | cons c rest =>
      have hc : p c = false := hend c rfl
      rw [List.takeWhile_cons_of_neg (by simp [hc]), List.dropWhile_cons_of_neg (by simp [hc])]
      exact ⟨List.append_nil cs, rfl⟩

theorem ends_dropWhile (p : Char → Bool) (cs : List Char) : Ends p (cs.dropWhile p) := by
  intro c hc
  have h := List.head?_dropWhile_not p cs
  rw [Option.mem_def] at hc
  rw [hc] at h
  exact h

theorem width_append : ∀ cs ds : List Char, Token.width (cs ++ ds) = Token.width cs + Token.width ds
  | [], ds => (Nat.zero_add _).symm
  | c :: cs, ds => by
      rw [List.cons_append, Token.width, Token.width, width_append cs ds, Nat.add_assoc]

/-! ### Words -/

/-- A keyword is a connective. -/
theorem ofWord_of_keyword {w : List Char} {k : Connective}
    (h : Connective.ofKeyword? (String.ofList w) = some k) : ofWord w = .connective k := by
  rw [ofWord, h]

/-- Any other word is a field. -/
theorem ofWord_of_not_keyword {w : List Char}
    (h : Connective.ofKeyword? (String.ofList w) = none) :
    ofWord w = .field (String.ofList (Text.lower w)) := by
  rw [ofWord, h]

/-- A word begins with no mark. -/
theorem cut_alphabetic (o : Nat) {c : Char} (cs : List Char) (hc : isAlphabetic c = true) :
    cut o c cs = .ok ⟨ofWord (c :: cs.takeWhile isAlphanumeric),
      Token.width (c :: cs.takeWhile isAlphanumeric), cs.dropWhile isAlphanumeric⟩ := by
  have hne : ∀ d : Char, isAlphabetic d = false → c ≠ d := by
    rintro d hd rfl
    rw [hc] at hd
    cases hd
  rw [cut, if_neg (hne _ (by decide)), if_neg (hne _ (by decide)), if_neg (hne _ (by decide)),
    if_neg (hne _ (by decide)), if_neg (hne _ (by decide)), if_neg (hne _ (by decide)), if_pos hc]

/-- A word spells a connective or a field. -/
theorem Spelled.word {w rest : List Char} (hw : IsWord w) (hend : Ends isAlphanumeric rest) :
    Spelled w rest (ofWord w) := by
  cases hk : Connective.ofKeyword? (String.ofList w) with
  | some k => rw [ofWord_of_keyword hk]; exact .keyword hw hend hk
  | none => rw [ofWord_of_not_keyword hk]; exact .field hw hend hk

/-- A word is cut from the front of a text that begins with a letter. -/
theorem isWord_takeWhile {c : Char} (cs : List Char) (hc : isAlphabetic c = true) :
    IsWord (c :: cs.takeWhile isAlphanumeric) := by
  refine ⟨⟨c, _, rfl, hc⟩, fun d hd => ?_⟩
  obtain rfl | hd := List.mem_cons.mp hd
  · exact Text.isAlphanumeric_of_isAlphabetic hc
  · exact List.mem_takeWhile_imp hd

/-! ### Numerals -/

theorem isDigit_iff {c : Char} : isDigit c = true ↔ 48 ≤ c.toNat ∧ c.toNat ≤ 57 := by
  rw [isDigit, Bool.and_eq_true, decide_eq_true_eq, decide_eq_true_eq]
  exact Iff.rfl

theorem not_isBlank_of_isDigit {c : Char} (h : isDigit c = true) : isBlank c = false := by
  have table : ∀ n < 58, 48 ≤ n → Text.inSpans Text.blankSpans n = false := by decide +kernel
  obtain ⟨hle, hge⟩ := isDigit_iff.mp h
  exact table c.toNat (by omega) hle

theorem not_isAlphabetic_of_isDigit {c : Char} (h : isDigit c = true) : isAlphabetic c = false := by
  have table : ∀ n < 58, 48 ≤ n → Text.inSpans Text.alphabeticSpans n = false := by decide +kernel
  obtain ⟨hle, hge⟩ := isDigit_iff.mp h
  exact table c.toNat (by omega) hle

theorem isNumeral_of_isDigit {c : Char} (h : isDigit c = true) : isNumeral c = true := by
  rw [isNumeral, h, Bool.true_or]

theorem isDigit_or_point_of_isNumeral {c : Char} (h : isNumeral c = true) :
    isDigit c = true ∨ c = '.' := by
  rwa [isNumeral, Bool.or_eq_true, beq_iff_eq] at h

theorem not_isBlank_of_isNumeral {c : Char} (h : isNumeral c = true) : isBlank c = false := by
  obtain h | rfl := isDigit_or_point_of_isNumeral h
  · exact not_isBlank_of_isDigit h
  · decide

theorem not_isAlphabetic_of_isNumeral {c : Char} (h : isNumeral c = true) :
    isAlphabetic c = false := by
  obtain h | rfl := isDigit_or_point_of_isNumeral h
  · exact not_isAlphabetic_of_isDigit h
  · decide +kernel

/-- A numeral begins with no mark and no letter. -/
theorem cut_digit (o : Nat) {c : Char} (cs : List Char) (hc : isDigit c = true) :
    cut o c cs = .ok ⟨ofLiteral (c :: cs.takeWhile isNumeral),
      Token.width (c :: cs.takeWhile isNumeral), cs.dropWhile isNumeral⟩ := by
  have hne : ∀ d : Char, isDigit d = false → c ≠ d := by
    rintro d hd rfl
    rw [hc] at hd
    cases hd
  rw [cut, if_neg (hne _ (by decide)), if_neg (hne _ (by decide)), if_neg (hne _ (by decide)),
    if_neg (hne _ (by decide)), if_neg (hne _ (by decide)), if_neg (hne _ (by decide)),
    if_neg (by simp [not_isAlphabetic_of_isDigit hc]), if_pos hc]

/-! ### Marks and quotes -/

theorem cut_mark (o : Nat) {c : Char} {l : Lexeme} (cs : List Char) (h : (c, l) ∈ marks) :
    cut o c cs = .ok ⟨l, 1, cs⟩ := by
  simp only [marks, List.mem_cons, Prod.mk.injEq, List.not_mem_nil, or_false] at h
  obtain ⟨rfl, rfl⟩ | ⟨rfl, rfl⟩ | ⟨rfl, rfl⟩ | ⟨rfl, rfl⟩ | ⟨rfl, rfl⟩ := h
  all_goals rfl

theorem width_quoted (content : List Char) :
    Token.width ('\'' :: (content ++ ['\''])) = Token.width content + 2 := by
  rw [Token.width, width_append, Nat.add_comm, Nat.add_assoc]
  rfl

/-- A text in quotes ends at the first quote. -/
theorem cut_quoted (o : Nat) {content : List Char} (hq : '\'' ∉ content) (rest : List Char) :
    cut o '\'' (content ++ '\'' :: rest) =
      .ok ⟨ofLiteral (Text.trim content), Token.width content + 2, rest⟩ := by
  have hcontent : ∀ c ∈ content, decide (c ≠ '\'') = true := fun c hc =>
    decide_eq_true fun heq => hq (heq ▸ hc)
  have hend : Ends (fun c => decide (c ≠ '\'')) ('\'' :: rest) := fun c hc => by cases hc; rfl
  obtain ⟨htake, hdrop⟩ := takeWhile_append_of_ends hcontent hend
  simp only [cut, htake, hdrop]
  rfl

theorem cut_unclosed (o : Nat) {cs : List Char} (hq : '\'' ∉ cs) :
    cut o '\'' cs = .error (.unterminated o) := by
  have hdrop : cs.dropWhile (· ≠ '\'') = [] := by
    refine List.dropWhile_eq_nil_iff.mpr fun c hc => decide_eq_true ?_
    rintro rfl
    exact hq hc
  simp only [cut, hdrop]
  rfl

/-! ### All lexemes -/

theorem cut_word (o : Nat) {w rest : List Char} (hw : IsWord w) (hend : Ends isAlphanumeric rest) :
    ∃ c cs, w = c :: cs ∧ isBlank c = false ∧
      cut o c (cs ++ rest) = .ok ⟨ofWord w, Token.width w, rest⟩ := by
  obtain ⟨c, cs, rfl, hc⟩ := hw.head
  obtain ⟨htake, hdrop⟩ := takeWhile_append_of_ends
    (fun d hd => hw.all d (List.mem_cons_of_mem c hd)) hend
  refine ⟨c, cs, rfl, not_isBlank_of_isAlphanumeric (hw.all c List.mem_cons_self), ?_⟩
  rw [cut_alphabetic o _ hc, htake, hdrop]

/-- What is spelled at the front of a text is cut from it. -/
theorem Spelled.cut_eq {chars rest : List Char} {l : Lexeme} (h : Spelled chars rest l) (o : Nat) :
    ∃ c cs, chars = c :: cs ∧ isBlank c = false ∧
      cut o c (cs ++ rest) = .ok ⟨l, Token.width chars, rest⟩ := by
  cases h with
  | @mark c _ hc =>
      have hascii : ∀ m ∈ marks, isBlank m.1 = false ∧ Token.width [m.1] = 1 := by decide
      obtain ⟨hblank, hwidth⟩ := hascii _ hc
      exact ⟨c, [], rfl, hblank, hwidth ▸ cut_mark o rest hc⟩
  | @quoted content hq =>
      refine ⟨'\'', content ++ ['\''], rfl, by decide, ?_⟩
      rw [List.append_assoc, width_quoted]
      exact cut_quoted o hq rest
  | keyword hw hend hk => rw [← ofWord_of_keyword hk]; exact cut_word o hw hend
  | field hw hend hk => rw [← ofWord_of_not_keyword hk]; exact cut_word o hw hend
  | @numeral d ds _ hd hds hend =>
      obtain ⟨htake, hdrop⟩ := takeWhile_append_of_ends hds hend
      refine ⟨d, ds, rfl, not_isBlank_of_isDigit hd, ?_⟩
      rw [cut_digit o _ hd, htake, hdrop]
      rfl

/-- A lexeme takes the first character at least. -/
theorem Spelled.length_le {chars rest cs : List Char} {c : Char} {l : Lexeme}
    (h : Spelled chars rest l) (heq : c :: cs = chars ++ rest) : rest.length ≤ cs.length := by
  obtain ⟨d, ds, rfl, -⟩ := h.cut_eq 0
  rw [List.cons_append, List.cons.injEq] at heq
  rw [heq.2, List.length_append]
  exact Nat.le_add_left _ _

/-! ### Where nothing is cut -/

/-- Behind a quote a lexeme begins if there is another quote. -/
theorem begins_quote {cs : List Char} (h : '\'' ∈ cs) : Begins ('\'' :: cs) := by
  obtain ⟨content, rest, rfl, hq⟩ := List.eq_append_cons_of_mem h
  exact ⟨'\'' :: (content ++ ['\'']), rest, _, by simp, .quoted hq rest⟩

/-- Whether a lexeme begins is seen from the first character, unless that is a quote. -/
theorem begins_iff {c : Char} (cs : List Char) (hquote : c ≠ '\'') :
    Begins (c :: cs) ↔ c ∈ marks.map Prod.fst ∨ isAlphabetic c = true ∨ isDigit c = true := by
  constructor
  · rintro ⟨chars, rest, l, heq, h⟩
    have hword : ∀ {w : List Char}, IsWord w → c :: cs = w ++ rest → isAlphabetic c = true := by
      rintro w hw heq
      obtain ⟨d, ds, rfl, hd⟩ := hw.head
      rwa [(List.cons.inj heq).1]
    cases h with
    | mark hc => exact Or.inl (List.mem_map.mpr ⟨_, hc, (List.cons.inj heq).1.symm⟩)
    | quoted => exact absurd (List.cons.inj heq).1 hquote
    | keyword hw => exact Or.inr (Or.inl (hword hw heq))
    | field hw => exact Or.inr (Or.inl (hword hw heq))
    | numeral hd => exact Or.inr (Or.inr ((List.cons.inj heq).1 ▸ hd))
  · rintro (hmark | halpha | hdigit)
    · obtain ⟨⟨_, l⟩, hc, rfl⟩ := List.mem_map.mp hmark
      exact ⟨[_], cs, l, rfl, .mark hc cs⟩
    · refine ⟨c :: cs.takeWhile isAlphanumeric, cs.dropWhile isAlphanumeric, _, ?_,
        .word (isWord_takeWhile cs halpha) (ends_dropWhile isAlphanumeric cs)⟩
      rw [List.cons_append, List.takeWhile_append_dropWhile]
    · refine ⟨c :: cs.takeWhile isNumeral, cs.dropWhile isNumeral, _, ?_,
        .numeral hdigit (fun _ hd => List.mem_takeWhile_imp hd) (ends_dropWhile isNumeral cs)⟩
      rw [List.cons_append, List.takeWhile_append_dropWhile]

/-- A character that no lexeme begins with is reported. -/
theorem cut_stray (o : Nat) {c : Char} {cs : List Char} (hquote : c ≠ '\'')
    (h : ¬ Begins (c :: cs)) : cut o c cs = .error (.unexpected c o) := by
  rw [begins_iff cs hquote, not_or, not_or] at h
  obtain ⟨hmark, halpha, hdigit⟩ := h
  simp only [marks, List.map_cons, List.map_nil, List.mem_cons, List.not_mem_nil, or_false,
    not_or] at hmark
  obtain ⟨h₁, h₂, h₃, h₄, h₅⟩ := hmark
  rw [cut, if_neg h₁, if_neg h₂, if_neg h₃, if_neg h₄, if_neg h₅, if_neg hquote, if_neg halpha,
    if_neg hdigit]

/-- Where no lexeme begins the scanner finds a fault. -/
theorem exists_cut_error (o : Nat) {c : Char} {cs : List Char} (h : ¬ Begins (c :: cs)) :
    ∃ e, cut o c cs = .error e := by
  by_cases hquote : c = '\''
  · subst hquote
    exact ⟨_, cut_unclosed o (mt begins_quote h)⟩
  · exact ⟨_, cut_stray o hquote h⟩

/-! ## The equations of spellings -/

theorem lexemes?_spelled {chars rest : List Char} {l : Lexeme} (h : Spelled chars rest l) :
    lexemes? (chars ++ rest) = (lexemes? rest).map (l :: ·) := by
  obtain ⟨c, cs, rfl, hblank, hcut⟩ := h.cut_eq 0
  exact lexemes?_cut hblank hcut

theorem lexemes?_mark {c : Char} {l : Lexeme} (cs : List Char) (h : (c, l) ∈ marks) :
    lexemes? (c :: cs) = (lexemes? cs).map (l :: ·) :=
  lexemes?_spelled (.mark h cs)

theorem lexemes?_quoted {content : List Char} (cs : List Char) (hq : '\'' ∉ content) :
    lexemes? ('\'' :: (content ++ '\'' :: cs)) =
      (lexemes? cs).map (ofLiteral (Text.trim content) :: ·) := by
  have h := lexemes?_spelled (.quoted hq cs)
  rwa [List.cons_append, List.append_assoc, List.singleton_append] at h

theorem lexemes?_word {w : List Char} (cs : List Char) (hw : IsWord w)
    (hend : Ends isAlphanumeric cs) : lexemes? (w ++ cs) = (lexemes? cs).map (ofWord w :: ·) :=
  lexemes?_spelled (.word hw hend)

theorem lexemes?_numeral {d : Char} {ds : List Char} (cs : List Char) (hd : isDigit d = true)
    (hds : ∀ c ∈ ds, isNumeral c = true) (hend : Ends isNumeral cs) :
    lexemes? (d :: ds ++ cs) = (lexemes? cs).map (ofLiteral (d :: ds) :: ·) :=
  lexemes?_spelled (.numeral hd hds hend)

/-- A character that no lexeme begins with stops the scanner. -/
theorem lexemes?_stray {c : Char} (cs : List Char) (hblank : isBlank c = false)
    (hmark : c ∉ marks.map Prod.fst) (hquote : c ≠ '\'') (halpha : isAlphabetic c = false)
    (hdigit : isDigit c = false) : lexemes? (c :: cs) = none := by
  refine lexemes?_fault hblank (cut_stray 0 hquote ((begins_iff cs hquote).not.mpr ?_))
  rw [halpha, hdigit]
  exact fun h => h.elim hmark (by simp)

/-! ## The scanner and the rules -/

/-- What is made up of lexemes is scanned into them. -/
theorem Lexes.lexemes? {cs : List Char} {ls : List Lexeme} (h : Lexes cs ls) :
    lexemes? cs = some ls := by
  induction h with
  | nil => exact lexemes?_nil
  | @blank c cs ls hc _ ih => rw [lexemes?_blank cs hc, ih]
  | @mark c l cs ls hc _ ih => rw [lexemes?_mark cs hc, ih]; rfl
  | @quoted content cs ls hq _ ih => rw [lexemes?_quoted cs hq, ih]; rfl
  | @word w cs ls hw hend _ ih => rw [lexemes?_word cs hw hend, ih]; rfl
  | @numeral d ds cs ls hd hds hend _ ih => rw [lexemes?_numeral cs hd hds hend, ih]; rfl

/-- A spelling in front of a text that is made up of lexemes. -/
theorem Lexes.spelled {chars rest : List Char} {l : Lexeme} {ls : List Lexeme}
    (h : Spelled chars rest l) (hrest : Lexes rest ls) : Lexes (chars ++ rest) (l :: ls) := by
  cases h with
  | mark hc => exact .mark hc hrest
  | quoted hq =>
      rw [List.cons_append, List.append_assoc, List.singleton_append]
      exact .quoted hq hrest
  | keyword hw hend hk => rw [← ofWord_of_keyword hk]; exact .word hw hend hrest
  | field hw hend hk => rw [← ofWord_of_not_keyword hk]; exact .word hw hend hrest
  | numeral hd hds hend => exact .numeral hd hds hend hrest

/-- What is scanned is made up of the lexemes. -/
theorem lexes_of_lexemes? :
    ∀ (cs : List Char) {ls : List Lexeme}, lexemes? cs = some ls → Lexes cs ls
  | [], ls, h => by
      rw [lexemes?_nil] at h
      cases h
      exact .nil
  | c :: cs, ls, h => by
      cases hc : isBlank c with
      | true =>
          rw [lexemes?_blank cs hc] at h
          exact .blank hc (lexes_of_lexemes? cs h)
      | false =>
          by_cases hbegins : Begins (c :: cs)
          · obtain ⟨chars, rest, l, heq, hl⟩ := hbegins
            have hlength : rest.length ≤ cs.length := hl.length_le heq
            rw [heq] at h ⊢
            rw [lexemes?_spelled hl, Option.map_eq_some_iff] at h
            obtain ⟨ls, hls, rfl⟩ := h
            exact .spelled hl (lexes_of_lexemes? rest hls)
          · obtain ⟨e, he⟩ := exists_cut_error 0 hbegins
            rw [lexemes?_fault hc he] at h
            cases h
termination_by cs => cs.length

/-- The scanner is exact: it finds the lexemes a text is made up of, and there is only one way. -/
theorem lexemes?_eq_some_iff {cs : List Char} {ls : List Lexeme} :
    lexemes? cs = some ls ↔ Lexes cs ls :=
  ⟨lexes_of_lexemes? cs, Lexes.lexemes?⟩

/-! ## Rule texts -/

/-- Tokens and a fault are what `lexemes?` goes by. -/
theorem tokenize_of_lexemes {text : String} {ls : List Lexeme}
    (h : lexemes? text.toList = some ls) :
    ∃ ts, tokenize text = .ok ts ∧ ts.map (·.lexeme) = ls := by
  rw [lexemes?] at h
  rw [tokenize, tokensAndFault]
  cases hscan : scan 0 text.toList with
  | mk ts fault =>
      rw [hscan] at h
      cases fault with
      | none =>
          cases h
          exact ⟨ts, rfl, rfl⟩
      | some e => cases h

theorem lexemes?_of_tokenize {text : String} {ts : List Token} (h : tokenize text = .ok ts) :
    lexemes? text.toList = some (ts.map (·.lexeme)) := by
  rw [tokenize, tokensAndFault] at h
  rw [lexemes?]
  cases hscan : scan 0 text.toList with
  | mk ts fault =>
      rw [hscan] at h
      cases fault with
      | none => cases h; rfl
      | some e => cases h

/-- A text with a fault is no formula. -/
theorem parseRule_of_fault {text : String} (h : lexemes? text.toList = none) :
    ∃ e, parseRule text = .error (.lex e) := by
  rw [parseRule]
  cases htok : tokenize text with
  | error e => exact ⟨e, rfl⟩
  | ok ts =>
      rw [lexemes?_of_tokenize htok] at h
      cases h

/-- A text with the lexemes of a chain is the formula of the chain, unless the chain nests too
deep. -/
theorem parseRule_of_lexemes {text : String} {e : Chain}
    (h : lexemes? text.toList = some e.lexemes) :
    parseRule text = if e.nesting ≤ maxNesting then .ok e.formula else .error .tooDeep := by
  obtain ⟨ts, htok, hts⟩ := tokenize_of_lexemes h
  simp only [parseRule, htok]
  by_cases hn : e.nesting ≤ maxNesting
  · rw [if_pos hn]
    exact Formula.ofTokens_of_lexemes hts hn
  · rw [if_neg hn]
    exact Formula.ofTokens_tooDeep hts (Nat.lt_of_not_le hn)

/-- A text that is read has the lexemes of a chain. -/
theorem lexemes_of_parseRule {text : String} {f : Formula} (h : parseRule text = .ok f) :
    ∃ e : Chain, lexemes? text.toList = some e.lexemes ∧ e.formula = f ∧
      e.nesting ≤ maxNesting := by
  rw [parseRule] at h
  cases htok : tokenize text with
  | error e => rw [htok] at h; cases h
  | ok ts =>
      rw [htok] at h
      obtain ⟨e, hl, hf, hn⟩ := Formula.lexemes_of_ofTokens h
      exact ⟨e, by rw [lexemes?_of_tokenize htok, hl], hf, hn⟩

end Rulebook
