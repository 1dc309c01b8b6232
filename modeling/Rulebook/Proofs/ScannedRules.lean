import Rulebook.Proofs.CanonicalText
import Rulebook.Proofs.EnteredValues

/-!
# What a rule that was read looks like

A formula that was read from a text is not any formula.  Its operators join two parts each, and it
is no higher than its tree nests (`Chain.height_formula_le`), so the limit of the parser bounds its
height as well.  Its field names are words that were brought to lower case, and lower-casing such a
name changes nothing and makes no keyword of it.  Its literals are what raw texts stand for, among
all doubles only finite ones, and a literal that stayed a text would stay one again.
-/

namespace Rulebook

open Rulebook.Text (lower lowered trim trimmed)

/-! ## Operators -/

namespace Formula

/-- Two parts each. -/
theorem Paired.eq_two {f : Formula} (h : f.Paired) : ∀ n ∈ f.arities, n = 2 := by
  induction h with
  | leaf c =>
      rw [arities]
      exact fun n hmem => absurd hmem List.not_mem_nil
  | @pair k f g _ _ hf hg =>
      rw [arities, aritiesOfAll, aritiesOfAll, aritiesOfAll, List.append_nil]
      intro n hmem
      rcases List.mem_cons.mp hmem with rfl | hmem
      · rfl
      · rcases List.mem_append.mp hmem with hmem | hmem
        · exact hf n hmem
        · exact hg n hmem

theorem height_pair (k : Connective) (f g : Formula) :
    (Formula.joined k [f, g]).height = max f.height g.height + 1 := by
  rw [height, heightOfAll, heightOfAll, heightOfAll, Nat.max_zero]

end Formula

mutual

/-- A formula is no higher than its tree nests. -/
theorem Chain.height_formula_le : ∀ e : Chain, e.formula.height ≤ e.nesting
  | .last p => by
      have hp := Primary.height_formula_le p
      rw [Chain.formula, Chain.nesting_last]
      omega
  | .link p k rest => by
      have hp := Primary.height_formula_le p
      have hrest := Chain.height_formula_le rest
      have hpos : 0 < rest.nesting := by
        cases rest with
        | last q => rw [Chain.nesting_last]; omega
        | link q k rest => rw [Chain.nesting_link]; omega
      rw [Chain.formula, Formula.height_pair, Chain.nesting_link]
      omega

/-- A comparison has a height of one, and the formula of a group is no higher than the group
nests. -/
theorem Primary.height_formula_le : ∀ p : Primary, p.formula.height ≤ max 1 p.inside
  | .comparison c => by
      rw [Primary.formula, Formula.height, Primary.inside]
      omega
  | .group inner => by
      have hinner := Chain.height_formula_le inner
      rw [Primary.formula, Primary.inside_group]
      omega

end

/-! ## Comparisons -/

/-- What can be said of a comparison of a rule that was read. -/
structure Comparison.WellRead (c : Comparison) : Prop where
  /-- The comparator is one that a rule can be written with. -/
  comparator : c.comparator = .gt ∨ c.comparator = .lt ∨ c.comparator = .eq
  /-- The field has a name. -/
  field_ne : c.field ≠ ""
  /-- The name is in lower case. -/
  field_lower : lowered c.field = c.field
  /-- The name is no keyword. -/
  field_keyword : c.field ≠ "and" ∧ c.field ≠ "or"
  /-- The literal is what some text stands for, and the text stands for the same among all doubles,
  of which it is a finite one if it is any. -/
  literal_finite : ∃ raw, c.literal = Value.ofLiteral raw ∧
    WideValue.ofLiteral raw = c.literal.widened ∧ (WideValue.ofLiteral raw).Finite
  /-- A text has no quote, no blanks at its ends, and nothing else would be made of it. -/
  literal_text : ∀ t, c.literal = .text t →
    '\'' ∉ t.toList ∧ trimmed t = t ∧ Value.ofLiteral t = .text t

theorem Comparison.Scanned.wellRead {c : Comparison} (h : c.Scanned) : c.WellRead where
  comparator := h.comparator
  field_ne := by
    obtain ⟨w, hw, -, hname⟩ := h.field
    obtain ⟨d, ds, hlower, -⟩ := hw.exists_lower_eq_cons
    intro hempty
    have hlist : c.field.toList = d :: ds := by rw [hname, String.toList_ofList, hlower]
    rw [hempty] at hlist
    cases hlist
  field_lower := by
    obtain ⟨w, -, -, hname⟩ := h.field
    rw [hname, lowered, String.toList_ofList, Text.lower_lower]
  field_keyword := by
    obtain ⟨w, -, hkey, hname⟩ := h.field
    rw [← Text.ofKeyword?_lower, ← hname] at hkey
    constructor
    · intro heq
      rw [heq] at hkey
      cases hkey
    · intro heq
      rw [heq] at hkey
      cases hkey
  literal_finite := by
    obtain ⟨raw, -, -, hraw⟩ := h.literal
    have hwidened := Value.widened_ofLiteral (String.ofList raw)
    refine ⟨_, hraw, hraw ▸ hwidened.symm, ?_⟩
    rw [← hwidened]
    exact Value.finite_widened _
  literal_text := by
    intro t ht
    obtain ⟨raw, hquote, htrim, hraw⟩ := h.literal
    rw [ht] at hraw
    have hsame := Value.eq_of_ofLiteral_text hraw.symm
    rw [hsame] at hraw
    have hlist : t.toList = raw := by rw [← hsame, String.toList_ofList]
    refine ⟨hlist ▸ hquote, ?_, hraw.symm⟩
    rw [trimmed, hlist, htrim, hsame]

/-- The operators of a rule that was read join two parts each, the rule is no higher than the limit
of the parser, and all its comparisons are well read. -/
theorem wellRead_of_parseRule {text : String} {f : Formula} (h : parseRule text = .ok f) :
    (∀ n ∈ f.arities, n = 2) ∧ f.height ≤ 512 ∧ ∀ c ∈ f.comparisons, c.WellRead := by
  obtain ⟨hpaired, hscanned, -⟩ := parseRule_text h
  obtain ⟨e, -, rfl, hn⟩ := lexemes_of_parseRule h
  exact ⟨hpaired.eq_two, e.height_formula_le.trans hn, fun c hc => (hscanned c hc).wellRead⟩

/-- A capital letter that becomes two characters, a negative double in quotes, and a word for
infinity, which stays a text. -/
theorem wellRead_of_parseRule_quoted :
    ∃ f, parseRule "İ > '-2.5' or b = ' inf '" = .ok f ∧ (∀ n ∈ f.arities, n = 2) ∧
      f.height ≤ 512 ∧ (Comparison.mk "b" .eq (.text "inf")).WellRead := by
  have htok : tokenize "İ > '-2.5' or b = ' inf '" = .ok [⟨.field "i\u0307", 0⟩,
      ⟨.comparator .gt, 3⟩, ⟨.value (.real (Binary64.ofQuotient true 5 2)), 5⟩,
      ⟨.connective .or, 12⟩, ⟨.field "b", 15⟩, ⟨.comparator .eq, 17⟩,
      ⟨.value (.text "inf"), 19⟩] := by
    decide +kernel
  have hread : parseRule "İ > '-2.5' or b = ' inf '" = .ok (.joined .or
      [.leaf ⟨"i\u0307", .gt, .real (Binary64.ofQuotient true 5 2)⟩,
        .leaf ⟨"b", .eq, .text "inf"⟩]) := by
    simp only [parseRule, htok]
    rfl
  obtain ⟨harities, hheight, hwellRead⟩ := wellRead_of_parseRule hread
  exact ⟨_, hread, harities, hheight, hwellRead _ (List.mem_cons_of_mem _ List.mem_cons_self)⟩

end Rulebook
