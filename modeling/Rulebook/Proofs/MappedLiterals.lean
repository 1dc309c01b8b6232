import Rulebook.Rule.Parser
import Rulebook.Rule.Verdict

/-!
# Literals and the reader of formulas

The reader of formulas looks at the kinds of tokens.  What a literal is makes no difference to
it.  So other literals in the place of those of the tokens are other literals in the formula that
they make up, or in the error that says what was found (`Formula.ofTokens_mapLiteral`).

A verdict depends on the verdicts of the comparisons, one by one (`Formula.verdict_mapLiteral`).
-/

namespace Rulebook

variable (g : Value → Value)

/-! ## Other literals -/

/-- A lexeme with another literal, if it is one. -/
def Lexeme.mapLiteral : Lexeme → Lexeme
  | .value v => .value (g v)
  | l => l

/-- A token with another literal, if it stands for one. -/
def Token.mapLiteral (t : Token) : Token := ⟨t.lexeme.mapLiteral g, t.offset⟩

/-- A comparison with another literal. -/
def Comparison.mapLiteral (c : Comparison) : Comparison := ⟨c.field, c.comparator, g c.literal⟩

namespace Formula

mutual

/-- A formula with other literals. -/
def mapLiteral : Formula → Formula
  | .leaf c => .leaf (c.mapLiteral g)
  | .joined k parts => .joined k (mapLiteralOfAll parts)

/-- Formulas with other literals. -/
def mapLiteralOfAll : List Formula → List Formula
  | [] => []
  | f :: fs => mapLiteral f :: mapLiteralOfAll fs

end

end Formula

/-- An error with other literals in what was found. -/
def ParseError.mapLiteral : ParseError → ParseError
  | .expectedComparison field found => .expectedComparison field (found.map (Lexeme.mapLiteral g))
  | .expectedValue field c found => .expectedValue field c (found.map (Lexeme.mapLiteral g))
  | .expectedClosing found => .expectedClosing (found.map (Lexeme.mapLiteral g))
  | .unexpected found => .unexpected (found.mapLiteral g)
  | .trailing found => .trailing (found.mapLiteral g)
  | e => e

namespace Formula

/-- What is read, with other literals. -/
def mapRead : Except ParseError (Formula × List Token) → Except ParseError (Formula × List Token)
  | .error e => .error (e.mapLiteral g)
  | .ok (f, rest) => .ok (f.mapLiteral g, rest.map (Token.mapLiteral g))

/-! ## Reading -/

theorem comparisonOf_mapLiteral (field : String) (ts : List Token) :
    comparisonOf field (ts.map (Token.mapLiteral g)) = mapRead g (comparisonOf field ts) := by
  cases ts with
  | nil => rfl
  | cons t ts =>
    obtain ⟨l, o⟩ := t
    cases l with
    | comparator c =>
      cases ts with
      | nil => rfl
      | cons t ts =>
        obtain ⟨l, o⟩ := t
        cases l <;> rfl
    | _ => rfl

theorem primary_mapLiteral {inner : List Token → Except ParseError (Formula × List Token)}
    (hinner : ∀ ts, inner (ts.map (Token.mapLiteral g)) = mapRead g (inner ts)) (ts : List Token) :
    primary inner (ts.map (Token.mapLiteral g)) = mapRead g (primary inner ts) := by
  cases ts with
  | nil => rfl
  | cons t ts =>
    obtain ⟨l, o⟩ := t
    rw [List.map_cons, primary, primary]
    cases l with
    | opening =>
      simp only [Token.mapLiteral, Lexeme.mapLiteral, hinner]
      cases inner ts with
      | error e => rfl
      | ok read =>
        obtain ⟨f, rest⟩ := read
        cases rest with
        | nil => rfl
        | cons t rest =>
          obtain ⟨l, o⟩ := t
          cases l <;> rfl
    | field name => exact comparisonOf_mapLiteral g name ts
    | _ => rfl

theorem expression_mapLiteral (levels : Nat) (ts : List Token) :
    expression levels (ts.map (Token.mapLiteral g)) = mapRead g (expression levels ts) := by
  induction levels generalizing ts with
  | zero => rfl
  | succ levels ih =>
    rw [expression, expression, primary_mapLiteral g ih]
    cases primary (expression levels) ts with
    | error e => rfl
    | ok read =>
      obtain ⟨f, rest⟩ := read
      cases rest with
      | nil => rfl
      | cons t rest =>
        obtain ⟨l, o⟩ := t
        cases l with
        | connective k =>
          simp only [mapRead, List.map_cons, Token.mapLiteral, Lexeme.mapLiteral]
          rw [ih]
          cases expression levels rest with
          | error e => rfl
          | ok read => rfl
        | _ => rfl

/-- Other literals in the tokens are other literals in what they make up. -/
theorem ofTokens_mapLiteral (ts : List Token) :
    ofTokens (ts.map (Token.mapLiteral g)) =
      ((ofTokens ts).map (mapLiteral g)).mapError (ParseError.mapLiteral g) := by
  cases ts with
  | nil => rfl
  | cons t ts =>
    have h := expression_mapLiteral g maxNesting (t :: ts)
    rw [List.map_cons] at h ⊢
    simp only [ofTokens, h]
    cases expression maxNesting (t :: ts) with
    | error e => rfl
    | ok read =>
      obtain ⟨f, rest⟩ := read
      cases rest <;> rfl

/-! ## Verdicts -/

variable {record record' : Record}

mutual

/-- The verdict on one record is that on another with other literals if it is so for every
comparison. -/
theorem verdict_mapLiteral : ∀ f : Formula,
    (∀ c ∈ f.comparisons, (c.mapLiteral g).verdict record' = c.verdict record) →
      (f.mapLiteral g).verdict record' = f.verdict record
  | .leaf c, h => by
      rw [mapLiteral, verdict, verdict]
      exact h c (by simp [comparisons])
  | .joined k parts, h => by
      rw [comparisons] at h
      rw [mapLiteral, verdict, verdict, verdicts_mapLiteral parts h]

theorem verdicts_mapLiteral : ∀ fs : List Formula,
    (∀ c ∈ comparisonsOfAll fs, (c.mapLiteral g).verdict record' = c.verdict record) →
      verdicts record' (mapLiteralOfAll g fs) = verdicts record fs
  | [], _ => by rw [mapLiteralOfAll, verdicts, verdicts]
  | f :: fs, h => by
      rw [comparisonsOfAll] at h
      have hf := verdict_mapLiteral f fun c hc => h c (List.mem_append_left _ hc)
      have hfs := verdicts_mapLiteral fs fun c hc => h c (List.mem_append_right _ hc)
      rw [mapLiteralOfAll, verdicts, verdicts, hf, hfs]

end

end Formula

end Rulebook
