import Rulebook.Proofs.Lexing
import Rulebook.Rule.TokenStream

/-!
# How a text splits

`Splits after o before ts` says that `before` is made up of blanks and lexemes and that `ts`
are the tokens of the lexemes.  The characters begin at the offset `o`, and `after` stands
behind them: it decides where the last lexeme ends.  `Halts` says why nothing more can be
split off.  The text is at its end, no lexeme begins with the next character, or a quote
has no other quote behind it.

`scan_eq_iff` says that the scanner splits as far as a text splits, and there is only one way.
`tokenize_exact` says so of a whole text, and of its tokens one by one.
-/

namespace Rulebook

open Rulebook.Text (isBlank)
open Rulebook.Token (cut scan width)

/-- The ways to split characters, which begin at an offset and have others behind them, into blanks
and the lexemes of tokens. -/
inductive Splits (after : List Char) : Nat → List Char → List Token → Prop where
  /-- There is nothing to split. -/
  | nil (o : Nat) : Splits after o [] []
  /-- A blank means nothing. -/
  | blank {o : Nat} {c : Char} {cs : List Char} {ts : List Token} (hc : isBlank c = true)
      (h : Splits after (o + c.utf8Size) cs ts) : Splits after o (c :: cs) ts
  /-- A lexeme is a token. -/
  | lexeme {o : Nat} {chars cs : List Char} {l : Lexeme} {ts : List Token}
      (hl : Spelled chars (cs ++ after) l) (h : Splits after (o + width chars) cs ts) :
      Splits after o (chars ++ cs) (⟨l, o⟩ :: ts)

/-- Why nothing can be split off a text that begins at an offset, and the fault if there is one. -/
inductive Halts (o : Nat) : List Char → Option LexError → Prop where
  /-- The text is at its end. -/
  | finished : Halts o [] none
  /-- The text begins with a character that is neither blank nor the first of a lexeme. -/
  | unexpected {c : Char} {cs : List Char} (hblank : isBlank c = false) (hquote : c ≠ '\'')
      (hl : ¬ Begins (c :: cs)) : Halts o (c :: cs) (some (.unexpected c o))
  /-- The text begins with its last quote. -/
  | unterminated {cs : List Char} (hq : '\'' ∉ cs) :
      Halts o ('\'' :: cs) (some (.unterminated o))

/-- How a text splits that does not split to its end. -/
structure Fault (text : String) (ts : List Token) (before after : List Char) (e : LexError) :
    Prop where
  /-- The text has two parts. -/
  text_eq : text.toList = before ++ after
  /-- The first part is made up of blanks and lexemes. -/
  splits : Splits after 0 before ts
  /-- From the second part nothing can be split off. -/
  halts : Halts (String.ofList before).utf8ByteSize after (some e)

/-! ## Every text splits -/

/-- A text that begins with no blank begins with a lexeme, or nothing can be split off. -/
theorem begins_or_halts (o : Nat) {c : Char} (cs : List Char) (hblank : isBlank c = false) :
    Begins (c :: cs) ∨ ∃ e, Halts o (c :: cs) (some e) := by
  by_cases hbegins : Begins (c :: cs)
  · exact Or.inl hbegins
  · by_cases hquote : c = '\''
    · subst hquote
      exact Or.inr ⟨_, .unterminated (mt begins_quote hbegins)⟩
    · exact Or.inr ⟨_, .unexpected hblank hquote hbegins⟩

/-- Blanks and lexemes can be split off a text until nothing can. -/
theorem exists_splits : ∀ (o : Nat) (cs : List Char), ∃ before after ts fault,
    cs = before ++ after ∧ Splits after o before ts ∧ Halts (o + width before) after fault
  | o, [] => ⟨[], [], [], none, rfl, .nil o, .finished⟩
  | o, c :: cs => by
      cases hc : isBlank c with
      | true =>
          obtain ⟨before, after, ts, fault, rfl, hsplits, hhalts⟩ :=
            exists_splits (o + c.utf8Size) cs
          refine ⟨c :: before, after, ts, fault, rfl, .blank hc hsplits, ?_⟩
          rwa [width, ← Nat.add_assoc]
      | false =>
          obtain ⟨chars, rest, l, heq, hl⟩ | ⟨e, hhalts⟩ := begins_or_halts o cs hc
          · have hlength : rest.length ≤ cs.length := hl.length_le heq
            obtain ⟨before, after, ts, fault, rfl, hsplits, hhalts⟩ :=
              exists_splits (o + width chars) rest
            refine ⟨chars ++ before, after, ⟨l, o⟩ :: ts, fault, ?_, .lexeme hl hsplits, ?_⟩
            · rw [heq, List.append_assoc]
            · rwa [width_append, ← Nat.add_assoc]
          · exact ⟨[], c :: cs, [], some e, rfl, .nil o, hhalts⟩
termination_by _ cs => cs.length

/-! ## The scanner -/

/-- What splits is scanned, and the scanner goes on behind it. -/
theorem Splits.scan_eq {after : List Char} {o : Nat} {before : List Char} {ts : List Token}
    (h : Splits after o before ts) : scan o (before ++ after) =
      (ts ++ (scan (o + width before) after).1, (scan (o + width before) after).2) := by
  induction h with
  | nil => rfl
  | @blank o c cs ts hc _ ih =>
      rw [List.cons_append, scan_blank o _ hc, ih, width, Nat.add_assoc]
  | @lexeme o chars cs l ts hl _ ih =>
      obtain ⟨c, ds, rfl, hblank, hcut⟩ := hl.cut_eq o
      rw [List.append_assoc, List.cons_append, scan_cut hblank hcut, ih, width_append,
        Nat.add_assoc]
      rfl

/-- Where nothing can be split off nothing is scanned. -/
theorem Halts.scan_eq {o : Nat} {cs : List Char} {fault : Option LexError} (h : Halts o cs fault) :
    scan o cs = ([], fault) := by
  cases h with
  | finished => rw [scan]
  | unexpected hblank hquote hl => exact scan_fault hblank (cut_stray o hquote hl)
  | unterminated hq => exact scan_fault (by decide) (cut_unclosed o hq)

/-- The scanner is exact: it splits a text as far as it splits, and there is only one way. -/
theorem scan_eq_iff {o : Nat} {cs : List Char} {ts : List Token} {fault : Option LexError} :
    scan o cs = (ts, fault) ↔ ∃ before after, cs = before ++ after ∧ Splits after o before ts ∧
      Halts (o + width before) after fault := by
  have key : ∀ {before after ts fault}, Splits after o before ts →
      Halts (o + width before) after fault → scan o (before ++ after) = (ts, fault) := by
    intro before after ts fault hsplits hhalts
    rw [hsplits.scan_eq, hhalts.scan_eq, List.append_nil]
  constructor
  · intro h
    obtain ⟨before, after, ts', fault', rfl, hsplits, hhalts⟩ := exists_splits o cs
    obtain ⟨rfl, rfl⟩ := Prod.mk.inj (h.symm.trans (key hsplits hhalts))
    exact ⟨before, after, rfl, hsplits, hhalts⟩
  · rintro ⟨before, after, rfl, hsplits, hhalts⟩
    exact key hsplits hhalts

theorem tokensAndFault_eq_iff {text : String} {ts : List Token} {fault : Option LexError} :
    tokensAndFault text = (ts, fault) ↔ ∃ before after, text.toList = before ++ after ∧
      Splits after 0 before ts ∧ Halts (width before) after fault := by
  rw [tokensAndFault, scan_eq_iff]
  simp only [Nat.zero_add]

theorem width_eq_utf8ByteSize : ∀ cs : List Char, width cs = (String.ofList cs).utf8ByteSize
  | [] => rfl
  | c :: cs => by
      rw [width, width_eq_utf8ByteSize cs, String.ofList_cons, String.utf8ByteSize_append,
        String.utf8ByteSize_singleton]

/-! ## Whole texts -/

theorem tokenize_eq_ok_iff {text : String} {ts : List Token} :
    tokenize text = .ok ts ↔ tokensAndFault text = (ts, none) := by
  rw [tokenize]
  rcases tokensAndFault text with ⟨ts', _ | e⟩
  · simp
  · simp

theorem tokenize_eq_error_iff {text : String} {e : LexError} :
    tokenize text = .error e ↔ ∃ ts, tokensAndFault text = (ts, some e) := by
  rw [tokenize]
  rcases tokensAndFault text with ⟨ts', _ | e'⟩
  · simp
  · simp

/-- A text has all its tokens if it splits to its end. -/
theorem tokenize_eq_ok_iff_splits {text : String} {ts : List Token} :
    tokenize text = .ok ts ↔ Splits [] 0 text.toList ts := by
  rw [tokenize_eq_ok_iff, tokensAndFault_eq_iff]
  constructor
  · rintro ⟨before, after, htext, hsplits, hhalts⟩
    cases hhalts
    rwa [htext, List.append_nil]
  · intro h
    exact ⟨text.toList, [], (List.append_nil _).symm, h, .finished⟩

theorem tokensAndFault_eq_some_iff {text : String} {ts : List Token} {e : LexError} :
    tokensAndFault text = (ts, some e) ↔ ∃ before after, Fault text ts before after e := by
  rw [tokensAndFault_eq_iff]
  constructor
  · rintro ⟨before, after, htext, hsplits, hhalts⟩
    exact ⟨before, after, htext, hsplits, width_eq_utf8ByteSize before ▸ hhalts⟩
  · rintro ⟨before, after, h⟩
    exact ⟨before, after, h.text_eq, h.splits, width_eq_utf8ByteSize before ▸ h.halts⟩

/-! ### What stands behind -/

theorem ends_left {p : Char → Bool} {cs after : List Char} (h : Ends p (cs ++ after)) :
    Ends p cs := by
  cases cs with
  | nil => exact fun c hc => by cases hc
  | cons c cs => exact h

/-- A lexeme is spelled in the same way in front of less. -/
theorem Spelled.left {chars cs after : List Char} {l : Lexeme} (h : Spelled chars (cs ++ after) l) :
    Spelled chars cs l := by
  cases h with
  | mark hc => exact .mark hc cs
  | quoted hq => exact .quoted hq cs
  | keyword hw hend hk => exact .keyword hw (ends_left hend) hk
  | field hw hend hk => exact .field hw (ends_left hend) hk
  | numeral hd hds hend => exact .numeral hd hds (ends_left hend)

/-- What splits in front of other characters splits by itself. -/
theorem Splits.left {after : List Char} {o : Nat} {before : List Char} {ts : List Token}
    (h : Splits after o before ts) : Splits [] o before ts := by
  induction h with
  | nil o => exact .nil o
  | blank hc _ ih => exact .blank hc ih
  | lexeme hl _ ih => exact .lexeme (by rw [List.append_nil]; exact hl.left) ih

/-! ## Tokens one by one -/

namespace TokenStream

/-- What a scan finds, one after the other. -/
def items (scanned : List Token × Option LexError) : List (Except LexError Token) :=
  scanned.1.map .ok ++ scanned.2.toList.map .error

theorem item_of_failed {s : TokenStream} (h : s.failed = true) : ∀ n : Nat, s.item n = none
  | 0 => by rw [item, next, if_pos h]
  | n + 1 => by
      rw [item, next, if_pos h]
      exact item_of_failed h n

/-- One step of a stream and of the scanner: they are at the end, at a fault or at a token. -/
theorem next_cases {s : TokenStream} (h : s.failed = false) :
    (s.next = (none, s.skipBlanks) ∧ scan s.offset s.rest = ([], none)) ∨
    (∃ e s', s'.failed = true ∧ s.next = (some (.error e), s') ∧
      scan s.offset s.rest = ([], some e)) ∨
    ∃ t s', s'.failed = false ∧ s.next = (some (.ok t), s') ∧ scan s.offset s.rest =
      (t :: (scan s'.offset s'.rest).1, (scan s'.offset s'.rest).2) := by
  have hnext : s.next = s.skipBlanks.take := by rw [next, if_neg (by simp [h])]
  have hskip : scan s.offset s.rest = scan s.skipBlanks.offset s.skipBlanks.rest :=
    scan_dropWhile s.offset s.rest
  have hends : Ends isBlank s.skipBlanks.rest := ends_dropWhile isBlank s.rest
  rw [hskip, hnext, take]
  cases hrest : s.skipBlanks.rest with
  | nil => exact Or.inl ⟨rfl, by rw [scan]⟩
  | cons c cs =>
      have hc : isBlank c = false := hends c (by rw [hrest]; rfl)
      cases hcut : cut s.skipBlanks.offset c cs with
      | error e =>
          refine Or.inr (Or.inl ⟨e, ⟨c :: cs, s.skipBlanks.offset, true⟩, rfl, ?_, ?_⟩)
          · simp only [hcut]
          · exact scan_fault hc hcut
      | ok k =>
          refine Or.inr (Or.inr ⟨⟨k.lexeme, s.skipBlanks.offset⟩,
            ⟨k.rest, s.skipBlanks.offset + k.width, s.skipBlanks.failed⟩, h, ?_, ?_⟩)
          · simp only [hcut]
          · exact scan_cut hc hcut

/-- A stream gives out what the scanner finds. -/
theorem item_eq {s : TokenStream} (h : s.failed = false) (n : Nat) :
    s.item n = (items (scan s.offset s.rest))[n]? := by
  induction n generalizing s with
  | zero =>
      rw [item]
      obtain ⟨hnext, hscan⟩ | ⟨e, s', -, hnext, hscan⟩ | ⟨t, s', -, hnext, hscan⟩ := next_cases h
      all_goals
        rw [hnext, hscan]
        rfl
  | succ n ih =>
      rw [item]
      obtain ⟨hnext, hscan⟩ | ⟨e, s', hs', hnext, hscan⟩ | ⟨t, s', hs', hnext, hscan⟩ :=
        next_cases h
      · have hskip : s.skipBlanks.failed = false := h
        have hsame : scan s.skipBlanks.offset s.skipBlanks.rest = scan s.offset s.rest :=
          (scan_dropWhile s.offset s.rest).symm
        rw [hnext, ih hskip, hsame, hscan]
        rfl
      · rw [hnext, item_of_failed hs', hscan]
        rfl
      · rw [hnext, ih hs', hscan]
        rfl

end TokenStream

/-- The scanner is exact.  A text has all its tokens if it splits to its end into blanks and
lexemes, and the tokens are those of the lexemes.  Else it has the fault of the place where it
splits no further, and its tokens one by one are those of what comes before, and then the fault. -/
theorem tokenize_exact (text : String) :
    (∀ ts, tokenize text = .ok ts ↔ Splits [] 0 text.toList ts) ∧
    (∀ e, tokenize text = .error e ↔ ∃ ts before after, Fault text ts before after e) ∧
    (∀ ts, Splits [] 0 text.toList ts →
      ∀ n, (TokenStream.ofText text).item n = (ts.map .ok)[n]?) ∧
    ∀ ts before after e, Fault text ts before after e →
      tokenize (String.ofList before) = .ok ts ∧
      ∀ n, (TokenStream.ofText text).item n = (ts.map .ok ++ [.error e])[n]? := by
  have hitem : ∀ n, (TokenStream.ofText text).item n =
      (TokenStream.items (tokensAndFault text))[n]? := TokenStream.item_eq rfl
  refine ⟨fun ts => tokenize_eq_ok_iff_splits, fun e => ?_, fun ts h n => ?_,
    fun ts before after e h => ⟨?_, fun n => ?_⟩⟩
  · rw [tokenize_eq_error_iff]
    exact exists_congr fun ts => tokensAndFault_eq_some_iff
  · rw [hitem, tokenize_eq_ok_iff.mp (tokenize_eq_ok_iff_splits.mpr h), TokenStream.items]
    exact congrArg (·[n]?) (List.append_nil _)
  · rw [tokenize_eq_ok_iff_splits, String.toList_ofList]
    exact h.splits.left
  · rw [hitem, tokensAndFault_eq_some_iff.mpr ⟨before, after, h⟩]
    rfl

end Rulebook
