import Rulebook.Proofs.AsciiCase
import Rulebook.Proofs.LeafVerdicts

/-!
# The language does not see the case of ASCII letters

Two texts that are equal up to the case of ASCII letters, between quotes too, are one text once
these letters are small.  So they are both refused, for the same reason at the same place, or the
formulas that they are read as differ in the texts that they ask for only, and these up to the
case of ASCII letters.

Verdicts compare texts in lower case, so they do not see the difference, neither in the formula
nor in the record.  A text meets a number in one more place: a literal may be compared with what
a number is shown as.  That never succeeds, since a literal that looks like a number is one
(`Value.not_sameText_number`).  So two records may also have numbers of one value that are shown
differently, such as the zeros of either sign.
-/

namespace Rulebook

open Rulebook.Text (asciiLowered lowered sameIgnoringAsciiCase)

/-! ## Values -/

namespace Value

/-- Whether two values are numbers of one value, or texts equal up to the case of ASCII letters. -/
inductive Similar : Value → Value → Prop where
  /-- Numbers. -/
  | number {v w : Value} {x y : Binary64} (hv : v.number? = some x) (hw : w.number? = some y)
      (h : x.same y = true) : Similar v w
  /-- Texts. -/
  | text {s t : String} (h : sameIgnoringAsciiCase s t = true) : Similar (.text s) (.text t)

theorem Similar.refl (v : Value) : v.Similar v := by
  cases hv : v.number? with
  | some x => exact .number hv hv (beq_self_eq_true x.signedRank)
  | none =>
    obtain ⟨s, rfl⟩ := Value.number?_eq_none_iff.mp hv
    exact .text (beq_self_eq_true _)

theorem number?_asciiLowered (v : Value) : v.asciiLowered.number? = v.number? := by
  cases v <;> rfl

theorem lowered_shown_asciiLowered (v : Value) :
    lowered v.asciiLowered.shown = lowered v.shown := by
  cases v with
  | text s => exact Text.lowered_asciiLowered s
  | _ => rfl

end Value

/-! ## Verdicts -/

/-- A comparator does not see the case of ASCII letters, nor how a number is shown. -/
theorem Comparator.verdict_similar (c : Comparator) {v w l : Value} (h : v.Similar w)
    (hl : ∀ s, l = .text s → Value.ofLiteral s = .text s) :
    c.verdict w l.asciiLowered = c.verdict v l := by
  have hnumber := l.number?_asciiLowered
  have hshown := l.lowered_shown_asciiLowered
  cases h with
  | @number _ _ x y hv hw hxy =>
    cases hz : l.number? with
    | some z =>
      rw [hz] at hnumber
      simp only [Comparator.verdict, hv, hw, hz, hnumber, Binary64.order, eq_of_beq hxy]
    | none =>
      rw [hz] at hnumber
      obtain ⟨s, rfl⟩ := Value.number?_eq_none_iff.mp hz
      have hnot {u : Value} {z : Binary64} (hu : u.number? = some z) :
          u.sameText (.text s) = false :=
        Value.not_sameText_number (by rw [hu]; exact Option.some_ne_none z) (hl s rfl)
      have hsame : w.sameText (Value.text s).asciiLowered = w.sameText (.text s) := by
        rw [Value.sameText, Value.sameText, hshown]
      rw [c.verdict_of_text (.inr hnumber), c.verdict_of_text (.inr hz), hsame, hnot hv, hnot hw]
  | @text s t hst =>
    have hst' : lowered s = lowered t := by
      rw [← Text.lowered_asciiLowered, Text.sameIgnoringAsciiCase_iff_asciiLowered.mp hst,
        Text.lowered_asciiLowered]
    have hsame : (Value.text t).sameText l.asciiLowered = (Value.text s).sameText l := by
      rw [Value.sameText, Value.sameText, hshown, Value.shown, Value.shown, hst']
    rw [c.verdict_of_text (.inl rfl), c.verdict_of_text (.inl rfl), hsame]

/-- Whether two records have the same fields, with similar values. -/
def Record.Similar (r r' : Record) : Prop :=
  ∀ field, Option.Rel Value.Similar (r.get? field) (r'.get? field)

theorem Record.Similar.refl (r : Record) : Record.Similar r r := by
  intro field
  cases r.get? field with
  | none => exact .none
  | some v => exact .some (.refl v)

/-- The literals of a formula that was read, if they are texts, are no numerals. -/
theorem literal_of_parseRule {text : String} {f : Formula} (h : parseRule text = .ok f)
    {c : Comparison} (hc : c ∈ f.comparisons) {s : String} (hs : c.literal = .text s) :
    Value.ofLiteral s = .text s := by
  obtain ⟨e, hl, rfl, -⟩ := lexemes_of_parseRule h
  obtain ⟨raw, -, -, hraw⟩ := (e.scanned (lexes_of_lexemes? _ hl).scanned c hc).literal
  rw [hs] at hraw
  obtain rfl := Value.eq_of_ofLiteral_text hraw.symm
  exact hraw.symm

theorem Comparison.verdict_similar {c : Comparison} {r r' : Record} (h : Record.Similar r r')
    (hc : ∀ s, c.literal = .text s → Value.ofLiteral s = .text s) :
    (c.mapLiteral Value.asciiLowered).verdict r' = c.verdict r := by
  rw [Comparison.verdict, Comparison.verdict, Comparison.mapLiteral]
  have hfield := h c.field
  cases hr : r.get? c.field with
  | none =>
    rw [hr] at hfield
    cases hr' : r'.get? c.field with
    | none => rfl
    | some w => rw [hr'] at hfield; cases hfield
  | some v =>
    rw [hr] at hfield
    cases hr' : r'.get? c.field with
    | none => rw [hr'] at hfield; cases hfield
    | some w =>
      rw [hr'] at hfield
      cases hfield with
      | some hvw => exact c.comparator.verdict_similar hvw hc

/-- The verdict of a formula that was read is that of the formula with small letters, on a similar
record. -/
theorem verdict_of_parseRule {text : String} {f : Formula} (h : parseRule text = .ok f)
    {r r' : Record} (hr : Record.Similar r r') :
    (f.mapLiteral Value.asciiLowered).verdict r' = f.verdict r :=
  Formula.verdict_mapLiteral _ f fun _ hc =>
    Comparison.verdict_similar hr fun _ => literal_of_parseRule h hc

/-- Texts that are equal up to the case of ASCII letters are both read or both refused. -/
theorem parseRule_of_sameIgnoringAsciiCase {t u : String} (h : sameIgnoringAsciiCase t u = true) :
    (∃ f g, parseRule t = .ok f ∧ parseRule u = .ok g ∧
      f.mapLiteral Value.asciiLowered = g.mapLiteral Value.asciiLowered ∧
      ∀ r r', Record.Similar r r' → f.verdict r = g.verdict r') ∨
    ∃ e e', parseRule t = .error e ∧ parseRule u = .error e' ∧
      e.mapLiteral Value.asciiLowered = e'.mapLiteral Value.asciiLowered := by
  have ht := parseRule_asciiLowered t
  have hu := parseRule_asciiLowered u
  rw [Text.sameIgnoringAsciiCase_iff_asciiLowered.mp h] at ht
  have heq := ht.symm.trans hu
  cases hf : parseRule t with
  | error e =>
    cases hg : parseRule u with
    | error e' =>
      rw [hf, hg] at heq
      exact .inr ⟨e, e', rfl, rfl, Except.error.inj heq⟩
    | ok g => rw [hf, hg] at heq; cases heq
  | ok f =>
    cases hg : parseRule u with
    | error e' => rw [hf, hg] at heq; cases heq
    | ok g =>
      rw [hf, hg] at heq
      have hsame := Except.ok.inj heq
      refine .inl ⟨f, g, rfl, rfl, hsame, fun r r' hr => ?_⟩
      rw [← verdict_of_parseRule hf hr, hsame, verdict_of_parseRule hg (.refl r')]

/-- Letters in field names, connectives, numerals and texts may be written in either case. -/
theorem parseRule_of_sameIgnoringAsciiCase_mixed :
    sameIgnoringAsciiCase "Age > '1E1' AND name = 'Bob'" "aGE > '1e1' and NAME = 'bOB'" = true ∧
    ∃ f g, parseRule "Age > '1E1' AND name = 'Bob'" = .ok f ∧
      parseRule "aGE > '1e1' and NAME = 'bOB'" = .ok g ∧
      f.mapLiteral Value.asciiLowered = g.mapLiteral Value.asciiLowered ∧
      ∀ r r', Record.Similar r r' → f.verdict r = g.verdict r' := by
  have hcase : sameIgnoringAsciiCase "Age > '1E1' AND name = 'Bob'"
      "aGE > '1e1' and NAME = 'bOB'" = true := by
    decide +kernel
  have hread : (parseRule "Age > '1E1' AND name = 'Bob'").toOption.isSome = true := by
    decide +kernel
  refine ⟨hcase, (parseRule_of_sameIgnoringAsciiCase hcase).resolve_right ?_⟩
  rintro ⟨e, -, herror, -⟩
  rw [herror] at hread
  cases hread

end Rulebook
