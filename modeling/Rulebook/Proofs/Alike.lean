import Mathlib.Data.List.Forall2
import Rulebook.Proofs.Printing

/-!
# Formulas of one shape

Two formulas are *alike* if they have one shape and their comparisons are related one by
one.  `Formula.Alike R` says so for a relation `R` of comparisons, `Lexeme.Alike R` for the
lexemes of two texts and a relation `R` of their literals.  Lexemes that are alike make up
formulas that are alike (`Chain.exists_alike`), and a verdict does not tell formulas apart
whose comparisons it does not tell apart (`Formula.Alike.verdict_eq`).
-/

namespace Rulebook

/-- Whether two lexemes differ in nothing but their literals, which are related. -/
inductive Lexeme.Alike (R : Value → Value → Prop) : Lexeme → Lexeme → Prop where
  /-- Literals. -/
  | value {v w : Value} (h : R v w) : Alike R (.value v) (.value w)
  /-- One and the same lexeme that is no literal. -/
  | same {l : Lexeme} (h : ∀ v, l ≠ .value v) : Alike R l l

/-- Whether two comparisons differ in nothing but their literals, which are related. -/
structure Comparison.Alike (R : Value → Value → Prop) (c d : Comparison) : Prop where
  /-- They are of one field. -/
  field : d.field = c.field
  /-- They are by one comparator. -/
  comparator : d.comparator = c.comparator
  /-- Their literals are related. -/
  literal : R c.literal d.literal

/-- Whether two formulas differ in nothing but their comparisons, which are related. -/
inductive Formula.Alike (R : Comparison → Comparison → Prop) : Formula → Formula → Prop where
  /-- Comparisons. -/
  | leaf {c d : Comparison} (h : R c d) : Alike R (.leaf c) (.leaf d)
  /-- Formulas joined by one connective. -/
  | pair (k : Connective) {f f' g g' : Formula} (hf : Alike R f f') (hg : Alike R g g') :
      Alike R (.joined k [f, g]) (.joined k [f', g'])

/-! ## From lexemes to formulas -/

theorem exists_of_forall₂_append {α β : Type} {R : α → β → Prop} {l₂ : List α} :
    ∀ {l₁ : List α} {l : List β}, List.Forall₂ R (l₁ ++ l₂) l →
      ∃ m₁ m₂, l = m₁ ++ m₂ ∧ List.Forall₂ R l₁ m₁ ∧ List.Forall₂ R l₂ m₂
  | [], l, h => ⟨[], l, rfl, .nil, h⟩
  | a :: l₁, _, .cons hab h => by
      obtain ⟨m₁, m₂, rfl, h₁, h₂⟩ := exists_of_forall₂_append h
      exact ⟨_ :: m₁, m₂, rfl, .cons hab h₁, h₂⟩

theorem Lexeme.Alike.eq {R : Value → Value → Prop} {l l' : Lexeme} (h : l.Alike R l')
    (hl : ∀ v, l ≠ .value v) : l' = l := by
  cases h with
  | value => exact absurd rfl (hl _)
  | same => rfl

mutual

/-- Lexemes like those of a chain are the lexemes of a chain like it. -/
theorem Chain.exists_alike {R : Value → Value → Prop} : ∀ (e : Chain) {ls : List Lexeme},
    List.Forall₂ (Lexeme.Alike R) e.lexemes ls →
      ∃ e' : Chain, ls = e'.lexemes ∧ e.formula.Alike (Comparison.Alike R) e'.formula ∧
        e'.nesting = e.nesting
  | .last p, ls, h => by
      rw [Chain.lexemes] at h
      obtain ⟨p', rfl, hf, hn⟩ := Primary.exists_alike p h
      refine ⟨.last p', by rw [Chain.lexemes], by rwa [Chain.formula, Chain.formula], ?_⟩
      rw [Chain.nesting_last, Chain.nesting_last, hn]
  | .link p k rest, ls, h => by
      rw [Chain.lexemes] at h
      obtain ⟨_, _, rfl, hp, hrest⟩ := exists_of_forall₂_append h
      obtain ⟨p', rfl, hf, hn⟩ := Primary.exists_alike p hp
      cases hrest with
      | cons hk hrest =>
          obtain rfl := hk.eq fun v hv => by cases hv
          obtain ⟨rest', rfl, hg, hm⟩ := Chain.exists_alike rest hrest
          refine ⟨.link p' k rest', by rw [Chain.lexemes], ?_, ?_⟩
          · rw [Chain.formula, Chain.formula]
            exact .pair k hf hg
          · rw [Chain.nesting_link, Chain.nesting_link, hn, hm]

/-- Lexemes like those of a primary are the lexemes of a primary like it. -/
theorem Primary.exists_alike {R : Value → Value → Prop} : ∀ (p : Primary) {ls : List Lexeme},
    List.Forall₂ (Lexeme.Alike R) p.lexemes ls →
      ∃ p' : Primary, ls = p'.lexemes ∧ p.formula.Alike (Comparison.Alike R) p'.formula ∧
        p'.inside = p.inside
  | .comparison c, ls, h => by
      rw [Primary.lexemes] at h
      obtain _ | ⟨hfield, _ | ⟨hcomp, _ | ⟨hvalue, hnil⟩⟩⟩ := h
      cases hnil
      obtain rfl := hfield.eq fun v hv => by cases hv
      obtain rfl := hcomp.eq fun v hv => by cases hv
      cases hvalue with
      | @value _ w hv =>
          refine ⟨.comparison ⟨c.field, c.comparator, w⟩, by rw [Primary.lexemes], ?_, ?_⟩
          · rw [Primary.formula, Primary.formula]
            exact .leaf ⟨rfl, rfl, hv⟩
          · rw [Primary.inside, Primary.inside]
      | same h => exact absurd rfl (h _)
  | .group e, ls, h => by
      rw [Primary.lexemes] at h
      obtain _ | ⟨hopen, h⟩ := h
      obtain ⟨_, _, rfl, he, hclose⟩ := exists_of_forall₂_append h
      obtain _ | ⟨hclose, hnil⟩ := hclose
      cases hnil
      obtain rfl := hopen.eq fun v hv => by cases hv
      obtain rfl := hclose.eq fun v hv => by cases hv
      obtain ⟨e', rfl, hf, hn⟩ := Chain.exists_alike e he
      refine ⟨.group e', by rw [Primary.lexemes], by rwa [Primary.formula, Primary.formula], ?_⟩
      rw [Primary.inside_group, Primary.inside_group, hn]

end

/-! ## Verdicts -/

/-- Formulas that differ in comparisons of equal verdicts only have equal verdicts. -/
theorem Formula.Alike.verdict_eq {R : Comparison → Comparison → Prop} {f g : Formula}
    (h : f.Alike R g) (record : Record) (hR : ∀ c d, R c d → c.verdict record = d.verdict record) :
    f.verdict record = g.verdict record := by
  induction h with
  | leaf h =>
      rw [Formula.verdict, Formula.verdict]
      exact hR _ _ h
  | pair k _ _ ihf ihg => exact Formula.verdict_joined_congr record k ihf ihg

theorem Formula.Alike.and {R S : Comparison → Comparison → Prop} {f g : Formula}
    (hR : f.Alike R g) (hS : f.Alike S g) : f.Alike (fun c d => R c d ∧ S c d) g := by
  induction hR with
  | leaf h =>
      cases hS with
      | leaf h' => exact .leaf ⟨h, h'⟩
  | pair k _ _ ihf ihg =>
      cases hS with
      | pair _ hf hg => exact .pair k (ihf hf) (ihg hg)

end Rulebook
