import Rulebook.Proofs.CombinedText
import Rulebook.Proofs.LeafVerdicts
import Rulebook.Proofs.Resolution

/-!
# Rules that were stored

A service keeps the clean form of a rule text, and evaluates that form when it is asked for
the rule by its identifier.  `evaluate_created` compares this with evaluating the text
itself.  The rule is kept unless a field has a combining dot in its lower case.  A rule that
is kept has a verdict like that of the text, with the literals cleaned, and the two verdicts
on a record agree where every comparison sees the same (`Comparison.SameOn`).

That is not always so.  Cleaning collapses the blanks between quotes as well, so a rule that
asks for a text with two blanks asks for one with one blank after it was stored
(`not_evaluate_created`).
-/

namespace Rulebook

open Rulebook.Text (isAllBlank isBlank lower lowered trimmed)

/-! ## Comparisons with other literals -/

/-- Whether the value that a record has for a field is, as a text, both of the literals of two
comparisons or neither. -/
def Comparison.SameOn (record : Record) (c d : Comparison) : Prop :=
  ∀ actual, record.get? c.field = some actual → c.comparator.appliesToText = true →
    actual.sameText c.literal = actual.sameText d.literal

theorem Comparator.holds_text_inj {c : Comparator} (h : c.appliesToText = true) (b b' : Bool) :
    c.holds (if b then .eq else .lt) = c.holds (if b' then .eq else .lt) ↔ b = b' := by
  cases c with
  | eq => revert b b'; decide
  | ne => revert b b'; decide
  | gt => cases h
  | lt => cases h
  | ge => cases h
  | le => cases h

/-- A comparator against a text. -/
theorem Comparator.verdict_text (c : Comparator) (actual : Value) (s : String) :
    c.verdict actual (.text s) =
      if c.appliesToText then .ok (c.holds (if actual.sameText (.text s) then .eq else .lt))
      else .error (.notForText c) :=
  c.verdict_of_text (.inr rfl)

/-- Two comparisons with texts have one verdict exactly where they see the same. -/
theorem Comparison.verdict_text_eq_iff (record : Record) (field s s' : String) (c : Comparator) :
    Comparison.verdict record ⟨field, c, .text s⟩ = Comparison.verdict record ⟨field, c, .text s'⟩ ↔
      Comparison.SameOn record ⟨field, c, .text s⟩ ⟨field, c, .text s'⟩ := by
  rw [Comparison.verdict, Comparison.verdict, Comparison.SameOn]
  cases record.get? field with
  | none => exact iff_of_true rfl fun actual hactual => by cases hactual
  | some actual =>
      simp only [Comparator.verdict_text, Option.some.injEq, forall_eq']
      cases happlies : c.appliesToText with
      | false => exact iff_of_true rfl fun h => by cases h
      | true =>
          rw [if_pos rfl, if_pos rfl, Except.ok.injEq, Comparator.holds_text_inj happlies]
          exact ⟨fun h _ => h, fun h => h rfl⟩

/-- A comparison and its clean form have one verdict exactly where they see the same. -/
theorem Comparison.Alike.verdict_eq_iff {text : List Char} {c d : Comparison}
    (h : c.Alike (Value.Cleaned text) d) (record : Record) :
    c.verdict record = d.verdict record ↔ c.SameOn record d := by
  obtain ⟨field, comparator, v⟩ := c
  obtain ⟨field', comparator', w⟩ := d
  obtain ⟨hfield, hcomparator, hliteral⟩ := h
  simp only at hfield hcomparator hliteral
  subst hfield hcomparator
  cases hliteral with
  | number => exact iff_of_true rfl fun actual _ _ => rfl
  | text => exact verdict_text_eq_iff record _ _ _ _
  | touched => exact verdict_text_eq_iff record _ _ _ _

/-! ## What the service does -/

namespace Service

variable (s : Service MemoryStore) {id e : String}

theorem trimmedIds_singleton (hid : isAllBlank id = false) : trimmedIds [id] = [trimmed id] := by
  have hne : (trimmed id).isEmpty = false := by
    rw [Bool.eq_false_iff, ne_eq, String.isEmpty_iff, Text.trimmed_eq_empty_iff, hid]
    decide
  rw [trimmedIds, List.map_singleton, List.filter_cons_of_pos (by simp [hne]), List.filter_nil]

/-- A text that is no rule in its clean form is refused. -/
theorem create_of_error {err : ParseError} (hid : isAllBlank id = false)
    (h : parseRule (clean e) = .error err) : s.create id e = (.error (.invalidRule err), s) := by
  rw [create, hid]
  simp only [h]
  rfl

/-- A text that is a rule in its clean form is kept in that form. -/
theorem create_of_ok {g : Formula} (hid : isAllBlank id = false) (h : parseRule (clean e) = .ok g) :
    s.create id e = (.ok ⟨trimmed id, clean e⟩,
      { s with store := s.store.save ⟨trimmed id, clean e⟩ }) := by
  rw [create, hid]
  simp only [h]
  rfl

/-- A rule is refused and leaves the service as it is, or it is kept. -/
theorem create_cases (id e : String) :
    (∃ err, s.create id e = (.error err, s)) ∨
    ∃ rule, s.create id e = (.ok rule, { s with store := s.store.save rule }) := by
  cases hid : isAllBlank id with
  | true => exact .inl ⟨_, by rw [create, hid]; rfl⟩
  | false =>
      cases h : parseRule (clean e) with
      | error err => exact .inl ⟨_, s.create_of_error hid h⟩
      | ok g => exact .inr ⟨_, s.create_of_ok hid h⟩

/-- A rule that was kept is what its identifier asks for. -/
theorem textOf_created {g : Formula} (hid : isAllBlank id = false)
    (h : parseRule (clean e) = .ok g) (data : Record) :
    (s.create id e).2.textOf ⟨none, some [id], data⟩ = .ok (clean e) := by
  have hfind : Repository.find (s.store.save ⟨trimmed id, clean e⟩) [trimmed id] =
      .ok [⟨trimmed id, clean e⟩] := by
    have hget := Table.get?_insert s.store.rules (trimmed id) (trimmed id) ⟨trimmed id, clean e⟩
    rw [if_pos rfl] at hget
    refine congrArg Except.ok ?_
    rw [MemoryStore.find, MemoryStore.save, List.filterMap_cons, hget]
    rfl
  have hcombine : Rulebook.combine [clean e] = clean e := by
    rw [Rulebook.combine, List.map_singleton, lowered_clean]
    rfl
  rw [create_of_ok s hid h, textOf]
  simp only [Option.filter_none, List.all_cons, hid, combine, trimmedIds_singleton hid, hfind,
    List.map_singleton, hcombine, h]
  rfl

end Service

/-- A rule text is kept exactly if none of its fields has a combining dot in its lower case, and a
text that is not kept leaves the service as it was.  The rule that was kept is a formula like that
of the text, with the literals cleaned.  Asked for by its identifier it has the verdicts of that
formula, and they are those of the text on a record on which every comparison sees the same.  A
rule of a single comparison has the verdict of the text on no other record. -/
theorem evaluate_created (s : Service MemoryStore) {id e : String} {f : Formula}
    (hid : isAllBlank id = false) (he : parseRule e = .ok f) :
    ((∃ c ∈ f.comparisons, '\u0307' ∈ c.field.toList) ∧
      ∃ err, s.create id e = (.error (.invalidRule (.lex err)), s)) ∨
    ((∀ c ∈ f.comparisons, '\u0307' ∉ c.field.toList) ∧
      (s.create id e).1 = .ok ⟨trimmed id, clean e⟩ ∧
      ∃ g, f.Alike (Comparison.Alike (Value.Cleaned e.toList)) g ∧ ∀ data stamp,
        ((s.create id e).2.evaluate ⟨none, some [id], data⟩ stamp).1 =
          (g.verdict data).mapError .evaluation ∧
        ((s.create id e).2.evaluate ⟨some e, none, data⟩ stamp).1 =
          (f.verdict data).mapError .evaluation ∧
        (f.Alike (Comparison.SameOn data) g → g.verdict data = f.verdict data) ∧
        (f.isLeaf = true → g.verdict data = f.verdict data →
          f.Alike (Comparison.SameOn data) g)) := by
  obtain ⟨hdot, err, hclean⟩ | ⟨hdots, g, hclean, halike⟩ := parseRule_clean he
  · exact Or.inl ⟨hdot, err, s.create_of_error hid hclean⟩
  · refine Or.inr ⟨hdots, by rw [s.create_of_ok hid hclean], g, halike, fun data stamp => ?_⟩
    refine ⟨?_, ?_, fun hsame => ?_, fun hleaf hverdict => ?_⟩
    · exact Service.evaluate_of_textOf _ (s.textOf_created hid hclean data) hclean stamp
    · exact Service.evaluate_of_textOf _ (Service.textOf_expression _ he none data) he stamp
    · exact ((halike.and hsame).verdict_eq data fun c d h => (h.1.verdict_eq_iff data).mpr h.2).symm
    · cases halike with
      | leaf h =>
          rw [Formula.verdict, Formula.verdict] at hverdict
          exact .leaf ((h.verdict_eq_iff data).mp hverdict.symm)
      | pair => cases hleaf

/-- A rule in capital letters is kept in small ones. -/
theorem evaluate_created_capitals :
    isAllBlank " r " = false ∧
    parseRule "A  > 1 AND B = 'US'" =
      .ok (.joined .and [.leaf ⟨"a", .gt, .integer 1⟩, .leaf ⟨"b", .eq, .text "US"⟩]) ∧
    ((⟨MemoryStore.empty 1, true⟩ : Service MemoryStore).create " r " "A  > 1 AND B = 'US'").1 =
      .ok ⟨"r", "a > 1 and b = 'us'"⟩ := by
  have htok : tokenize "A  > 1 AND B = 'US'" = .ok [⟨.field "a", 0⟩, ⟨.comparator .gt, 3⟩,
      ⟨.value (.integer 1), 5⟩, ⟨.connective .and, 7⟩, ⟨.field "b", 11⟩, ⟨.comparator .eq, 13⟩,
      ⟨.value (.text "US"), 15⟩] := by
    decide +kernel
  have hread : parseRule "A  > 1 AND B = 'US'" =
      .ok (.joined .and [.leaf ⟨"a", .gt, .integer 1⟩, .leaf ⟨"b", .eq, .text "US"⟩]) := by
    simp only [parseRule, htok]
    rfl
  have hid : isAllBlank " r " = false := by decide
  refine ⟨hid, hread, ?_⟩
  obtain ⟨⟨c, hc, hdot⟩, -⟩ | ⟨-, hcreate, -⟩ :=
    evaluate_created ⟨MemoryStore.empty 1, true⟩ hid hread
  · have hnone : ∀ c ∈ ([⟨"a", .gt, .integer 1⟩, ⟨"b", .eq, .text "US"⟩] : List Comparison),
        '\u0307' ∉ c.field.toList := by decide
    exact absurd hdot (hnone c hc)
  · have hclean : clean "A  > 1 AND B = 'US'" = "a > 1 and b = 'us'" := by decide +kernel
    have htrim : trimmed " r " = "r" := by decide
    rw [hcreate, hclean, htrim]

/-- A rule that asks for a text with two blanks is kept as one that asks for one blank. -/
theorem not_evaluate_created :
    ¬ ∀ (s : Service MemoryStore) (id e : String) (f : Formula), isAllBlank id = false →
      parseRule e = .ok f →
        (∃ rule, (s.create id e).1 = .ok rule) ∧ ∀ data stamp,
          ((s.create id e).2.evaluate ⟨none, some [id], data⟩ stamp).1 =
            ((s.create id e).2.evaluate ⟨some e, none, data⟩ stamp).1 := by
  have htok : tokenize "a = 'x  y'" =
      .ok [⟨.field "a", 0⟩, ⟨.comparator .eq, 2⟩, ⟨.value (.text "x  y"), 4⟩] := by
    decide +kernel
  have hread : parseRule "a = 'x  y'" = .ok (.leaf ⟨"a", .eq, .text "x  y"⟩) := by
    simp only [parseRule, htok]
    rfl
  have htok' : tokenize (clean "a = 'x  y'") =
      .ok [⟨.field "a", 0⟩, ⟨.comparator .eq, 2⟩, ⟨.value (.text "x y"), 4⟩] := by
    decide +kernel
  have hread' : parseRule (clean "a = 'x  y'") = .ok (.leaf ⟨"a", .eq, .text "x y"⟩) := by
    simp only [parseRule, htok']
    rfl
  have hid : isAllBlank "r" = false := by decide
  intro hclaim
  have heq := (hclaim ⟨MemoryStore.empty 1, true⟩ "r" "a = 'x  y'" _ hid hread).2
    (Table.empty.insert "a" (.text "x  y")) Stamp.zero
  rw [Service.evaluate_of_textOf _ (Service.textOf_created _ hid hread' _) hread',
    Service.evaluate_of_textOf _ (Service.textOf_expression _ hread none _) hread] at heq
  revert heq
  decide +kernel

end Rulebook
