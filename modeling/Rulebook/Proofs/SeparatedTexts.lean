import Rulebook.Proofs.CombinedText
import Rulebook.Proofs.Splitting

/-!
# Tokens of texts with blanks between them

`Lexes.append` says which lexemes two texts have that are written with a blank between them.  Here
the same is said of tokens, which know where their lexemes begin, and of faults.

*A blank ends every lexeme.*  A text that splits to its end splits in the same way in front of a
blank (`Splits.before_blank`), and what splits behind it is put behind its tokens
(`Splits.append`).

*Offsets are counted from the beginning of the text.*  A text that begins later splits in the same
way and halts in the same place, with all offsets moved by the same number of bytes
(`Splits.shift`, `Halts.shift`).

So the scanner reads the two texts one after the other: `tokensAndFault_append_blanks` is this for
the tokens before a fault and the fault, and `tokenize_append_blanks` for a reader who wants all
tokens or none.
-/

namespace Rulebook

open Rulebook.Text (isBlank)
open Rulebook.Token (scan width)

/-- The token of the same lexeme a number of bytes further on. -/
def Token.shift (bytes : Nat) (t : Token) : Token := ⟨t.lexeme, t.offset + bytes⟩

/-- The same error a number of bytes further on. -/
def LexError.shift (bytes : Nat) : LexError → LexError
  | .unterminated offset => .unterminated (offset + bytes)
  | .unexpected c offset => .unexpected c (offset + bytes)

variable {after cs ds : List Char} {o : Nat} {ts us : List Token}

/-! ## Offsets -/

/-- A text that begins later splits in the same way. -/
theorem Splits.shift (bytes : Nat) (h : Splits after o cs ts) :
    Splits after (o + bytes) cs (ts.map (Token.shift bytes)) := by
  induction h with
  | nil o => exact .nil (o + bytes)
  | @blank o c cs ts hc _ ih =>
      rw [Nat.add_right_comm] at ih
      exact .blank hc ih
  | @lexeme o chars cs l ts hl _ ih =>
      rw [Nat.add_right_comm] at ih
      exact .lexeme hl ih

/-- A text that begins later halts for the same reason. -/
theorem Halts.shift (bytes : Nat) {fault : Option LexError} (h : Halts o cs fault) :
    Halts (o + bytes) cs (fault.map (LexError.shift bytes)) := by
  cases h with
  | finished => exact .finished
  | unexpected hblank hquote hl => exact .unexpected hblank hquote hl
  | unterminated hq => exact .unterminated hq

/-- The scanner finds the same in a text that begins later, that much further on. -/
theorem scan_shift (bytes o : Nat) (cs : List Char) :
    scan (o + bytes) cs = ((scan o cs).1.map (Token.shift bytes),
      (scan o cs).2.map (LexError.shift bytes)) := by
  obtain ⟨before, after, hcs, hsplits, hhalts⟩ := scan_eq_iff.mp (rfl : scan o cs = scan o cs)
  refine scan_eq_iff.mpr ⟨before, after, hcs, hsplits.shift bytes, ?_⟩
  rw [Nat.add_right_comm]
  exact hhalts.shift bytes

/-! ## Blanks -/

/-- Blanks split into nothing. -/
theorem splits_blanks (after : List Char) (o : Nat) {ws : List Char}
    (h : ∀ c ∈ ws, isBlank c = true) : Splits after o ws [] := by
  induction ws generalizing o with
  | nil => exact .nil o
  | cons c ws ih =>
      obtain ⟨hc, hws⟩ := List.forall_mem_cons.mp h
      exact .blank hc (ih (o + c.utf8Size) hws)

/-- A lexeme that ends a text is not continued by a blank. -/
theorem Spelled.before_blank {chars : List Char} {l : Lexeme} {c : Char}
    (h : Spelled chars cs l) (hc : isBlank c = true) : Spelled chars (cs ++ c :: ds) l := by
  cases h with
  | mark hm => exact .mark hm _
  | quoted hq => exact .quoted hq _
  | keyword hw hend hk =>
      exact .keyword hw (ends_append_blank hend (not_isAlphanumeric_of_isBlank hc)) hk
  | field hw hend hk =>
      exact .field hw (ends_append_blank hend (not_isAlphanumeric_of_isBlank hc)) hk
  | numeral hd hds hend =>
      exact .numeral hd hds (ends_append_blank hend (not_isNumeral_of_isBlank hc))

/-- What splits by itself splits in front of a blank. -/
theorem Splits.before_blank {c : Char} (h : Splits [] o cs ts) (hc : isBlank c = true) :
    Splits (c :: ds) o cs ts := by
  induction h with
  | nil o => exact .nil o
  | blank hb _ ih => exact .blank hb ih
  | lexeme hl _ ih =>
      rw [List.append_nil] at hl
      exact .lexeme (hl.before_blank hc) ih

/-! ## One behind the other -/

/-- Characters that split in front of others which split too. -/
theorem Splits.append (h : Splits (ds ++ after) o cs ts)
    (hds : Splits after (o + width cs) ds us) : Splits after o (cs ++ ds) (ts ++ us) := by
  induction h with
  | nil o => exact hds
  | @blank o c cs ts hc _ ih =>
      rw [width, ← Nat.add_assoc] at hds
      exact .blank hc (ih hds)
  | @lexeme o chars cs l ts hl _ ih =>
      rw [width_append, ← Nat.add_assoc] at hds
      rw [← List.append_assoc] at hl
      rw [List.append_assoc]
      exact .lexeme hl (ih hds)

/-- The scanner goes on behind blanks as at the beginning of a text, that much further on. -/
theorem tokensAndFault_append_blanks {a w : String} (ha : tokenize a = .ok ts) (hw : w ≠ "")
    (hblank : ∀ c ∈ w.toList, isBlank c = true) (b : String) :
    tokensAndFault (a ++ w ++ b) =
      (ts ++ (tokensAndFault b).1.map (Token.shift (a ++ w).utf8ByteSize),
        (tokensAndFault b).2.map (LexError.shift (a ++ w).utf8ByteSize)) := by
  have hsplits : Splits b.toList 0 (a.toList ++ w.toList) (ts ++ []) := by
    refine Splits.append ?_ (splits_blanks b.toList _ hblank)
    cases hlist : w.toList with
    | nil => exact absurd (String.toList_eq_nil_iff.mp hlist) hw
    | cons c ws =>
        exact (tokenize_eq_ok_iff_splits.mp ha).before_blank (hblank c (hlist ▸ List.mem_cons_self))
  have hwidth : width (a.toList ++ w.toList) = (a ++ w).utf8ByteSize := by
    rw [← String.toList_append, width_eq_utf8ByteSize, String.ofList_toList]
  rw [tokensAndFault, String.toList_append, String.toList_append, hsplits.scan_eq, hwidth,
    List.append_nil, scan_shift, tokensAndFault]

/-- A text that has all its tokens, blanks, and another text.  If the other text has all its tokens
too, the whole has those of the one and then those of the other.  Else it has the fault of the
other.  The offsets of the other are moved by the bytes in front of it. -/
theorem tokenize_append_blanks {a w : String} (ha : tokenize a = .ok ts) (hw : w ≠ "")
    (hblank : ∀ c ∈ w.toList, isBlank c = true) (b : String) :
    tokenize (a ++ w ++ b) =
      match tokenize b with
      | .ok us => .ok (ts ++ us.map (Token.shift (a ++ w).utf8ByteSize))
      | .error e => .error (e.shift (a ++ w).utf8ByteSize) := by
  rw [tokenize, tokensAndFault_append_blanks ha hw hblank, tokenize]
  rcases tokensAndFault b with ⟨us, _ | e⟩
  · rfl
  · rfl

/-- The first text ends with a numeral and the others begin with characters that could go on with
it.  The blank has three bytes.  One of the other texts has all its tokens, and one has not. -/
theorem tokenize_append_blanks_numeral :
    tokenize "é > 1" = .ok [⟨.field "é", 0⟩, ⟨.comparator .gt, 3⟩, ⟨.value (.integer 1), 5⟩] ∧
      "\u2003" ≠ "" ∧ (∀ c ∈ "\u2003".toList, isBlank c = true) ∧
      tokenize ("é > 1" ++ "\u2003" ++ "2.5)") =
        .ok [⟨.field "é", 0⟩, ⟨.comparator .gt, 3⟩, ⟨.value (.integer 1), 5⟩,
          ⟨.value (.real (Binary64.ofQuotient false 5 2)), 9⟩, ⟨.closing, 12⟩] ∧
      tokenize ("é > 1" ++ "\u2003" ++ "0 = 'x") = .error (.unterminated 13) := by
  have ha : tokenize "é > 1" =
      .ok [⟨.field "é", 0⟩, ⟨.comparator .gt, 3⟩, ⟨.value (.integer 1), 5⟩] := by
    decide +kernel
  have hw : "\u2003" ≠ "" := by decide
  have hblank : ∀ c ∈ "\u2003".toList, isBlank c = true := List.all_eq_true.mp (by decide)
  have htokens : tokenize "2.5)" =
      .ok [⟨.value (.real (Binary64.ofQuotient false 5 2)), 0⟩, ⟨.closing, 3⟩] := by
    decide +kernel
  have hfault : tokenize "0 = 'x" = .error (.unterminated 4) := by decide +kernel
  refine ⟨ha, hw, hblank, ?_, ?_⟩
  · rw [tokenize_append_blanks ha hw hblank, htokens]
    rfl
  · rw [tokenize_append_blanks ha hw hblank, hfault]
    rfl

-- without a blank the numeral goes on
example : tokenize ("1" ++ "2.5") = .ok [⟨.value (.real (Binary64.ofQuotient false 25 2)), 0⟩] := by
  decide +kernel

end Rulebook
