import Rulebook.Proofs.CleanText
import Rulebook.Service.Basic
import Rulebook.Store.Memory

/-!
# What a request resolves to

A request to evaluate names a rule text, or identifiers whose rules are joined into one.  A
text that is blank does not count, and neither do identifiers if all of them are blank.
`Service.textOf` says which text it comes to, and everything after that depends on this text
and on the record (`Service.evaluate_of_textOf_ok`).

So a client may also ask for the joined text first and hand it back as the text to evaluate.
The detour changes nothing (`evaluate_ids_eq_evaluate_combined`), in any repository: the
joined text has been read as a rule before it is given out, so it is not blank, and it is
taken as it is.  The verdict or the failure is the same, and so is what the journal is given.
-/

namespace Rulebook

open Rulebook.Text (isAllBlank)

/-! ## Rule texts are not blank -/

theorem Chain.lexemes_ne_nil : ∀ e : Chain, e.lexemes ≠ []
  | .last (.comparison c) => by
      rw [Chain.lexemes, Primary.lexemes]
      exact List.cons_ne_nil _ _
  | .last (.group e) => by
      rw [Chain.lexemes, Primary.lexemes]
      exact List.cons_ne_nil _ _
  | .link p k rest => by
      rw [Chain.lexemes]
      exact List.append_ne_nil_of_right_ne_nil _ (List.cons_ne_nil _ _)

/-- A rule text is not all blank. -/
theorem not_isAllBlank_of_parseRule {e : String} {f : Formula} (h : parseRule e = .ok f) :
    isAllBlank e = false := by
  rw [Bool.eq_false_iff]
  intro hblank
  obtain ⟨chain, hl, -, -⟩ := lexemes_of_parseRule h
  have hnil := lexemes?_blanks [] fun c hc => List.all_eq_true.mp hblank c hc
  rw [List.append_nil, lexemes?_nil, hl, Option.some.injEq] at hnil
  exact chain.lexemes_ne_nil hnil

namespace Service

variable {σ : Type} [Repository σ] (s : Service σ) {e : String} {ids : List String}

/-! ## The text of a request -/

theorem textOf_expression {f : Formula} (h : parseRule e = .ok f) (ids : Option (List String))
    (data : Record) : s.textOf ⟨some e, ids, data⟩ = .ok e := by
  rw [textOf, Option.filter_some_pos (by simp [not_isAllBlank_of_parseRule h])]

/-- A request without a text, or with a blank one, asks for the rules of its identifiers, unless all
of these are blank. -/
theorem textOf_ids_eq {expression : Option String}
    (hblank : ∀ text ∈ expression, isAllBlank text = true) (ids : List String) (data : Record) :
    s.textOf ⟨expression, some ids, data⟩ =
      if ids.all isAllBlank then .error .missingExpression else s.combine ids := by
  have hnone : expression.filter (!isAllBlank ·) = none := by
    rw [Option.filter_eq_none_iff]
    intro text htext
    simp [hblank text htext]
  rw [textOf, hnone]

/-- Identifiers are joined if there is no text, or only a blank one. -/
theorem textOf_ids {expression : Option String}
    (hblank : ∀ text ∈ expression, isAllBlank text = true)
    (hids : ∃ id ∈ ids, isAllBlank id = false) (data : Record) :
    s.textOf ⟨expression, some ids, data⟩ = s.combine ids := by
  have hall : ids.all isAllBlank = false := by
    rw [List.all_eq_false]
    obtain ⟨id, hid, hnot⟩ := hids
    exact ⟨id, hid, by simp [hnot]⟩
  rw [s.textOf_ids_eq hblank, hall, if_neg Bool.false_ne_true]

/-- A joined text is a rule text. -/
theorem exists_formula_of_combine {text : String} (h : s.combine ids = .ok text) :
    ∃ f, parseRule text = .ok f := by
  unfold combine at h
  split at h
  next => cases h
  next => cases h
  next =>
    simp only at h
    split at h
    next => cases h
    next f hf =>
      cases h
      exact ⟨f, hf⟩

/-! ## The verdict of a request -/

theorem evaluate_of_textOf_error {request : EvaluationRequest} {err : ServiceError}
    (h : s.textOf request = .error err) (stamp : Stamp) :
    s.evaluate request stamp = (.error err, s) := by
  rw [evaluate, h]

/-- The text and the record decide what the outcome is and what goes into the journal. -/
theorem evaluate_of_textOf_ok {request : EvaluationRequest} {text : String}
    (h : s.textOf request = .ok text) (stamp : Stamp) :
    s.evaluate request stamp = match judge text request.data with
      | .error err => (.error err, s)
      | .ok result => (.ok result, s.note ⟨stamp, result, request.data, text⟩) := by
  cases hjudge : judge text request.data with
  | error err => simp only [evaluate, h, hjudge]
  | ok result => simp only [evaluate, h, hjudge]

/-- A request is judged by the text it asks for. -/
theorem evaluate_fst (request : EvaluationRequest) (stamp : Stamp) :
    (s.evaluate request stamp).1 = match s.textOf request with
      | .error err => .error err
      | .ok text => judge text request.data := by
  cases htext : s.textOf request with
  | error err => rw [s.evaluate_of_textOf_error htext]
  | ok text =>
      rw [s.evaluate_of_textOf_ok htext]
      simp only
      cases judge text request.data with
      | error err => rfl
      | ok b => rfl

theorem evaluate_of_textOf {request : EvaluationRequest} {f : Formula}
    (htext : s.textOf request = .ok e) (h : parseRule e = .ok f) (stamp : Stamp) :
    (s.evaluate request stamp).1 = (f.verdict request.data).mapError .evaluation := by
  simp only [evaluate_fst, htext, judge, h]

/-- Requests that come to the same text have the same outcome. -/
theorem evaluate_of_textOf_eq {request request' : EvaluationRequest}
    (h : s.textOf request = s.textOf request') (hdata : request.data = request'.data)
    (stamp : Stamp) : s.evaluate request stamp = s.evaluate request' stamp := by
  rw [evaluate, evaluate, h, hdata]

/-- A request fails and leaves the service as it is, or has a verdict that is noted. -/
theorem evaluate_cases (request : EvaluationRequest) (stamp : Stamp) :
    (∃ err, s.evaluate request stamp = (.error err, s)) ∨
    ∃ text result, s.textOf request = .ok text ∧
      s.evaluate request stamp = (.ok result, s.note ⟨stamp, result, request.data, text⟩) := by
  cases htext : s.textOf request with
  | error err => exact .inl ⟨err, s.evaluate_of_textOf_error htext stamp⟩
  | ok text =>
      rw [s.evaluate_of_textOf_ok htext]
      cases judge text request.data with
      | error err => exact .inl ⟨err, rfl⟩
      | ok result => exact .inr ⟨text, result, rfl, rfl⟩

end Service

/-- To evaluate the rules of identifiers is to join them and to evaluate the text they are joined
to.  If they cannot be joined, the request fails for the same reason.  The text is always a rule
text, and a verdict on it is noted with this text. -/
theorem evaluate_ids_eq_evaluate_combined {σ : Type} [Repository σ] (s : Service σ)
    (ids : List String) :
    (∀ text, s.combine ids = .ok text → ∃ f, parseRule text = .ok f) ∧
    ∀ (expression : Option String) (data : Record) (stamp : Stamp),
      (∀ text ∈ expression, isAllBlank text = true) → (∃ id ∈ ids, isAllBlank id = false) →
      (∀ err, s.combine ids = .error err →
        s.evaluate ⟨expression, some ids, data⟩ stamp = (.error err, s)) ∧
      ∀ text, s.combine ids = .ok text →
        (∀ others, s.evaluate ⟨expression, some ids, data⟩ stamp =
          s.evaluate ⟨some text, others, data⟩ stamp) ∧
        (∀ err, (s.evaluate ⟨expression, some ids, data⟩ stamp).1 = .error err →
          (s.evaluate ⟨expression, some ids, data⟩ stamp).2 = s) ∧
        ∀ result, (s.evaluate ⟨expression, some ids, data⟩ stamp).1 = .ok result →
          (s.evaluate ⟨expression, some ids, data⟩ stamp).2 =
            s.note ⟨stamp, result, data, text⟩ := by
  refine ⟨fun text => s.exists_formula_of_combine, fun expression data stamp hblank hids => ?_⟩
  have htextOf := s.textOf_ids hblank hids data
  refine ⟨fun err hcombine => ?_, fun text hcombine => ?_⟩
  · exact s.evaluate_of_textOf_error (htextOf.trans hcombine) stamp
  · obtain ⟨f, hf⟩ := s.exists_formula_of_combine hcombine
    have hleft := s.evaluate_of_textOf_ok (htextOf.trans hcombine) stamp
    refine ⟨fun others => ?_, ?_⟩
    · rw [hleft, s.evaluate_of_textOf_ok (s.textOf_expression hf others data)]
    · rw [hleft]
      simp only
      cases Service.judge text data with
      | error err => simp
      | ok result => simp

/-- A blank text, and identifiers with blanks around them, without a rule and twice. -/
theorem evaluate_ids_eq_evaluate_combined_padded :
    ∃ s : Service MemoryStore,
      (∀ text ∈ some " \t", isAllBlank text = true) ∧
      (∃ id ∈ ["b", " ", "c", " a ", "b"], isAllBlank id = false) ∧
      s.combine ["b", " ", "c", " a ", "b"] = .ok "x > 1 AND y = 'us'" ∧
      (∃ f, parseRule "x > 1 AND y = 'us'" = .ok f) ∧
      ∀ data stamp,
        s.evaluate ⟨some " \t", some ["b", " ", "c", " a ", "b"], data⟩ stamp =
          s.evaluate ⟨some "x > 1 AND y = 'us'", some ["c"], data⟩ stamp := by
  let s : Service MemoryStore :=
    ⟨{ rules := Table.ofList [("a", ⟨"a", "x > 1"⟩), ("b", ⟨"b", "y = 'us'"⟩)], journal := [],
       capacity := 1 }, true⟩
  have hblank : ∀ text ∈ some " \t", isAllBlank text = true := by
    intro text htext
    cases htext
    decide
  have hids : ∃ id ∈ ["b", " ", "c", " a ", "b"], isAllBlank id = false := by decide
  have hcombine : s.combine ["b", " ", "c", " a ", "b"] = .ok "x > 1 AND y = 'us'" := by
    decide +kernel
  obtain ⟨hread, hsame⟩ := evaluate_ids_eq_evaluate_combined s ["b", " ", "c", " a ", "b"]
  refine ⟨s, hblank, hids, hcombine, hread _ hcombine, fun data stamp => ?_⟩
  exact ((hsame _ data stamp hblank hids).2 _ hcombine).1 (some ["c"])

end Rulebook
