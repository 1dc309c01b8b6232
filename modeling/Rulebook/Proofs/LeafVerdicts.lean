import Mathlib.Data.List.Forall2
import Rulebook.Rule.Verdict

/-!
# Verdicts read off the leaves

The verdict of a formula is computed part by part.  This module says what it is in terms of
the comparisons at the leaves, and of the connectives above them, without a computation.

* `Comparison.Fails` gives the two reasons for which a comparison has no verdict.
* `FirstFailure` says which failure comes first in a list of comparisons, read from the left.
  No connective has a say in it, and no verdict of another comparison either.
* `Formula.Holds` is the boolean meaning of a formula, for any truth of its comparisons.

`accounted_verdict` goes through the tree.  Parts are judged from left to right, so a failure in
one part comes before all failures of the parts behind it, and the leaves of the parts in a row
are the leaves of the formula.  The two facts meet in `FirstFailure.append_left` and
`FirstFailure.append_right`, which are all that the induction needs of lists.
-/

namespace Rulebook

/-! ## A single comparison -/

/-- Why a comparison has no verdict on a record. -/
inductive Comparison.Fails (record : Record) (c : Comparison) : EvalError → Prop where
  /-- The record has no such field. -/
  | absent (h : record.get? c.field = none) : Fails record c (.fieldNotFound c.field)
  /-- One of the two sides is a text, and the comparator is not for texts. -/
  | refused {actual : Value} (h : record.get? c.field = some actual)
      (htext : (∃ s, actual = .text s) ∨ ∃ s, c.literal = .text s)
      (hcomp : c.comparator ≠ .eq ∧ c.comparator ≠ .ne) : Fails record c (.notForText c.comparator)

theorem Value.number?_eq_none_iff {v : Value} : v.number? = none ↔ ∃ s, v = .text s := by
  cases v with
  | integer i => exact iff_of_false (fun h => by cases h) (fun ⟨s, h⟩ => by cases h)
  | real x => exact iff_of_false (fun h => by cases h) (fun ⟨s, h⟩ => by cases h)
  | text s => exact iff_of_true rfl ⟨s, rfl⟩

theorem Comparator.not_appliesToText_iff {c : Comparator} :
    c.appliesToText = false ↔ c ≠ .eq ∧ c ≠ .ne := by
  cases c <;> decide

/-- As soon as one side is a text, both are compared as texts. -/
theorem Comparator.verdict_of_text (c : Comparator) {actual literal : Value}
    (h : actual.number? = none ∨ literal.number? = none) :
    c.verdict actual literal =
      if c.appliesToText then .ok (c.holds (if actual.sameText literal then .eq else .lt))
      else .error (.notForText c) := by
  rw [Comparator.verdict]
  split
  next x y hx hy => simp [hx, hy] at h
  next => rfl

/-- A comparator is refused where a text meets an order, and nowhere else. -/
theorem Comparator.verdict_eq_error_iff {c : Comparator} {actual literal : Value} {e : EvalError} :
    c.verdict actual literal = .error e ↔
      (actual.number? = none ∨ literal.number? = none) ∧ c.appliesToText = false ∧
        e = .notForText c := by
  rw [Comparator.verdict]
  split
  case h_1 x y hx hy => simp [hx, hy]
  case h_2 hnot =>
    have htext : actual.number? = none ∨ literal.number? = none := by
      cases hx : actual.number? with
      | none => exact .inl rfl
      | some x =>
          cases hy : literal.number? with
          | none => exact .inr rfl
          | some y => exact absurd hy (hnot x y hx)
    cases c.appliesToText with
    | true => simp
    | false =>
        simp only [Bool.false_eq_true, if_false, Except.error.injEq, true_and]
        exact ⟨fun he => ⟨htext, he.symm⟩, fun he => he.2.symm⟩

namespace Comparison

variable {record : Record} {c : Comparison} {e : EvalError}

/-- A comparison has no verdict exactly if it fails, and then for one of the two reasons. -/
theorem verdict_eq_error_iff : c.verdict record = .error e ↔ c.Fails record e := by
  rw [Comparison.verdict]
  cases hget : record.get? c.field with
  | none =>
      simp only [Except.error.injEq]
      constructor
      · rintro rfl
        exact .absent hget
      · intro h
        cases h with
        | absent => rfl
        | refused h => rw [h] at hget; cases hget
  | some actual =>
      simp only [Comparator.verdict_eq_error_iff, Value.number?_eq_none_iff,
        Comparator.not_appliesToText_iff]
      constructor
      · rintro ⟨htext, hcomp, rfl⟩
        exact .refused hget htext hcomp
      · intro h
        cases h with
        | absent h => rw [h] at hget; cases hget
        | refused h htext hcomp =>
            rw [h, Option.some.injEq] at hget
            exact ⟨hget ▸ htext, hcomp, rfl⟩

theorem Fails.unique {e' : EvalError} (h : c.Fails record e) (h' : c.Fails record e') : e = e' := by
  rw [← verdict_eq_error_iff] at h h'
  rw [h] at h'
  exact Except.error.inj h'

end Comparison

/-! ## The first failure -/

/-- Whether every comparison of a list has a verdict. -/
def Judged (record : Record) (cs : List Comparison) : Prop :=
  ∀ c ∈ cs, ∀ e, ¬ c.Fails record e

/-- Whether a failure is the first one in a list of comparisons. -/
def FirstFailure (record : Record) (cs : List Comparison) (e : EvalError) : Prop :=
  ∃ before c after, cs = before ++ c :: after ∧ Judged record before ∧ c.Fails record e

variable {record : Record} {cs ds : List Comparison} {e : EvalError}

theorem Judged.append (hcs : Judged record cs) (hds : Judged record ds) :
    Judged record (cs ++ ds) := by
  intro c hc
  obtain hc | hc := List.mem_append.mp hc
  · exact hcs c hc
  · exact hds c hc

namespace FirstFailure

/-- What stands behind a failure does not matter. -/
theorem append_left (h : FirstFailure record cs e) (ds : List Comparison) :
    FirstFailure record (cs ++ ds) e := by
  obtain ⟨before, c, after, rfl, hbefore, hc⟩ := h
  exact ⟨before, c, after ++ ds, by rw [List.append_assoc, List.cons_append], hbefore, hc⟩

/-- Comparisons that have verdicts may stand in front. -/
theorem append_right (hcs : Judged record cs) (h : FirstFailure record ds e) :
    FirstFailure record (cs ++ ds) e := by
  obtain ⟨before, c, after, rfl, hbefore, hc⟩ := h
  exact ⟨cs ++ before, c, after, by rw [List.append_assoc], hcs.append hbefore, hc⟩

theorem not_judged (h : FirstFailure record cs e) : ¬ Judged record cs := by
  obtain ⟨before, c, after, rfl, -, hc⟩ := h
  exact fun hall => hall c (List.mem_append_right _ List.mem_cons_self) e hc

/-- There is a first failure if there is any. -/
theorem exists_of_not_judged : ∀ {cs : List Comparison}, ¬ Judged record cs →
    ∃ e, FirstFailure record cs e
  | [], h => absurd (fun c hc => absurd hc List.not_mem_nil) h
  | c :: cs, h => by
      by_cases hc : ∃ e, c.Fails record e
      · obtain ⟨e, he⟩ := hc
        exact ⟨e, [], c, cs, rfl, fun d hd => absurd hd List.not_mem_nil, he⟩
      · have hone : Judged record [c] := by
          intro d hd e he
          rw [List.mem_singleton.mp hd] at he
          exact hc ⟨e, he⟩
        obtain ⟨e, he⟩ := exists_of_not_judged fun hcs => h (hone.append hcs)
        exact ⟨e, he.append_right hone⟩

/-- Only one failure is the first. -/
theorem unique {e' : EvalError} (h : FirstFailure record cs e) (h' : FirstFailure record cs e') :
    e = e' := by
  obtain ⟨before, c, after, rfl, hbefore, hc⟩ := h
  obtain ⟨before', c', after', heq, hbefore', hc'⟩ := h'
  obtain ⟨mid, rfl, hmid⟩ | ⟨mid, rfl, hmid⟩ := List.append_eq_append_iff.mp heq
  · cases mid with
    | nil =>
        obtain ⟨rfl, -⟩ := List.cons.inj hmid
        exact hc.unique hc'
    | cons d mid =>
        obtain ⟨rfl, -⟩ := List.cons.inj hmid
        exact absurd hc (hbefore' c (List.mem_append_right _ List.mem_cons_self) e)
  · cases mid with
    | nil =>
        obtain ⟨rfl, -⟩ := List.cons.inj hmid
        exact hc.unique hc'
    | cons d mid =>
        obtain ⟨rfl, -⟩ := List.cons.inj hmid
        exact absurd hc' (hbefore c' (List.mem_append_right _ List.mem_cons_self) e')

end FirstFailure

/-! ## Truth -/

namespace Formula

/-- Whether a formula is true, for a given truth of its comparisons. -/
inductive Holds (truth : Comparison → Prop) : Formula → Prop where
  /-- A comparison that is true. -/
  | leaf {c : Comparison} (h : truth c) : Holds truth (.leaf c)
  /-- All of several formulas, which may be none. -/
  | all {parts : List Formula} (h : ∀ f ∈ parts, Holds truth f) : Holds truth (.joined .and parts)
  /-- One of several formulas. -/
  | any {parts : List Formula} {f : Formula} (hf : f ∈ parts) (h : Holds truth f) :
      Holds truth (.joined .or parts)

variable {truth : Comparison → Prop} {parts : List Formula}

theorem holds_leaf {c : Comparison} : (Formula.leaf c).Holds truth ↔ truth c := by
  constructor
  · rintro ⟨h⟩
    exact h
  · exact .leaf

theorem holds_and : (Formula.joined .and parts).Holds truth ↔ ∀ f ∈ parts, f.Holds truth := by
  constructor
  · intro h
    cases h with
    | all h => exact h
  · exact .all

theorem holds_or : (Formula.joined .or parts).Holds truth ↔ ∃ f ∈ parts, f.Holds truth := by
  constructor
  · intro h
    cases h with
    | any hf h => exact ⟨_, hf, h⟩
  · rintro ⟨f, hf, h⟩
    exact .any hf h

/-- A connective combines verdicts that say which parts are true to one that says whether the whole
is. -/
theorem combine_eq_true_iff (k : Connective) {vs : List Bool}
    (h : List.Forall₂ (fun v (f : Formula) => v = true ↔ f.Holds truth) vs parts) :
    k.combine vs = true ↔ (Formula.joined k parts).Holds truth := by
  cases k with
  | and =>
      rw [holds_and, Connective.combine]
      induction h with
      | nil => simp
      | cons hv _ ih =>
          simp only [List.all_cons, id_eq, Bool.and_eq_true, hv, ih, List.forall_mem_cons]
  | or =>
      rw [holds_or, Connective.combine]
      induction h with
      | nil => simp
      | cons hv _ ih =>
          simp only [List.any_cons, id_eq, Bool.or_eq_true, hv, ih, List.mem_cons, or_and_right,
            exists_or, exists_eq_left]

/-- Whether a formula is true by the verdicts of its comparisons on a record. -/
def IsTrue (record : Record) (f : Formula) : Prop := f.Holds fun c => c.verdict record = .ok true

/-! ## Through the tree -/

/-- What the leaves of a formula say about its verdict: it is the first failure among them, or else
the truth of the formula. -/
def Accounted (record : Record) (f : Formula) : Except EvalError Bool → Prop
  | .error e => FirstFailure record f.comparisons e
  | .ok v => Judged record f.comparisons ∧ (v = true ↔ f.IsTrue record)

theorem accounted_leaf (record : Record) (c : Comparison) :
    (Formula.leaf c).Accounted record (c.verdict record) := by
  cases hv : c.verdict record with
  | error e =>
      exact ⟨[], c, [], rfl, fun d hd => absurd hd List.not_mem_nil,
        Comparison.verdict_eq_error_iff.mp hv⟩
  | ok v =>
      refine ⟨fun d hd e he => ?_, ?_⟩
      · rw [List.mem_singleton.mp hd, ← Comparison.verdict_eq_error_iff, hv] at he
        cases he
      · rw [IsTrue, holds_leaf, hv, Except.ok.injEq]

mutual

/-- The verdict of a formula is accounted for by its leaves. -/
theorem accounted_verdict (record : Record) (f : Formula) :
    f.Accounted record (f.verdict record) := by
  cases f with
  | leaf c =>
      rw [verdict]
      exact accounted_leaf record c
  | joined k parts =>
      rw [verdict]
      cases hvs : verdicts record parts with
      | error e => exact firstFailure_of_verdicts hvs
      | ok vs =>
          obtain ⟨hjudged, htrue⟩ := judged_of_verdicts hvs
          exact ⟨hjudged, combine_eq_true_iff k htrue⟩

/-- The failure of several formulas is the first among all their leaves. -/
theorem firstFailure_of_verdicts {record : Record} : ∀ {fs : List Formula} {e : EvalError},
    verdicts record fs = .error e → FirstFailure record (comparisonsOfAll fs) e
  | f :: fs, e, h => by
      have hf := accounted_verdict record f
      rw [verdicts] at h
      rw [comparisonsOfAll]
      cases hv : f.verdict record with
      | error e' =>
          rw [hv] at h hf
          cases h
          exact hf.append_left (comparisonsOfAll fs)
      | ok v =>
          rw [hv] at h hf
          cases hvs : verdicts record fs with
          | error e' =>
              rw [hvs] at h
              cases h
              exact (firstFailure_of_verdicts hvs).append_right hf.1
          | ok vs => rw [hvs] at h; cases h

/-- If several formulas have verdicts, all their leaves have, and the verdicts say which formulas
are true. -/
theorem judged_of_verdicts {record : Record} : ∀ {fs : List Formula} {vs : List Bool},
    verdicts record fs = .ok vs → Judged record (comparisonsOfAll fs) ∧
      List.Forall₂ (fun v (f : Formula) => v = true ↔ f.IsTrue record) vs fs
  | [], vs, h => by
      cases h
      exact ⟨fun c hc => absurd hc List.not_mem_nil, .nil⟩
  | f :: fs, vs, h => by
      have hf := accounted_verdict record f
      rw [verdicts] at h
      rw [comparisonsOfAll]
      cases hv : f.verdict record with
      | error e => rw [hv] at h; cases h
      | ok v =>
          rw [hv] at h hf
          cases hvs : verdicts record fs with
          | error e => rw [hvs] at h; cases h
          | ok vs' =>
              rw [hvs] at h
              cases h
              obtain ⟨hjudged, htrue⟩ := judged_of_verdicts hvs
              exact ⟨hf.1.append hjudged, .cons hf.2 htrue⟩

end

end Formula

/-- A formula has no verdict on a record exactly if one of its comparisons has none, and then for
the reason of the first of these from the left, whatever the connectives and the other verdicts
are.  Else the verdict is the truth of the formula by the verdicts of its comparisons, where
formulas joined by `and` are true if all of them are, and formulas joined by `or` if one is. -/
theorem verdict_eq_iff_leaves (f : Formula) (record : Record) :
    ((∃ e, f.verdict record = .error e) ↔ ∃ c ∈ f.comparisons, ∃ e, c.Fails record e) ∧
    (∀ e, f.verdict record = .error e ↔ FirstFailure record f.comparisons e) ∧
    ∀ v, f.verdict record = .ok v ↔
      (∀ c ∈ f.comparisons, ∀ e, ¬ c.Fails record e) ∧ (v = true ↔ f.IsTrue record) := by
  have herror : ∀ e, f.verdict record = .error e ↔ FirstFailure record f.comparisons e := by
    intro e
    have h := f.accounted_verdict record
    cases hv : f.verdict record with
    | error e' =>
        rw [hv] at h
        rw [Except.error.injEq]
        exact ⟨fun he => he ▸ h, fun he => h.unique he⟩
    | ok v =>
        rw [hv] at h
        exact iff_of_false (fun he => by cases he) (fun he => he.not_judged h.1)
  refine ⟨?_, herror, fun v => ?_⟩
  · simp only [herror]
    constructor
    · rintro ⟨e, before, c, after, hcs, -, hc⟩
      exact ⟨c, hcs ▸ List.mem_append_right _ List.mem_cons_self, e, hc⟩
    · rintro ⟨c, hc, e, he⟩
      exact FirstFailure.exists_of_not_judged fun h => h c hc e he
  · have h := f.accounted_verdict record
    cases hv : f.verdict record with
    | error e =>
        rw [hv] at h
        exact iff_of_false (fun he => by cases he) (fun he => h.not_judged he.1)
    | ok v' =>
        rw [hv] at h
        rw [Except.ok.injEq]
        constructor
        · rintro rfl
          exact h
        · rintro ⟨-, htrue⟩
          exact Bool.eq_iff_iff.mpr (h.2.trans htrue.symm)

example : (Formula.joined .and [.leaf ⟨"a", .gt, .integer 1⟩, .joined .or
      [.joined .and [], .leaf ⟨"b", .eq, .integer 1⟩, .leaf ⟨"c", .lt, .text "x"⟩]]).verdict
    (Table.ofList [("a", .integer 0), ("c", .integer 1)]) = .error (.fieldNotFound "b") := by
  decide +kernel

end Rulebook
