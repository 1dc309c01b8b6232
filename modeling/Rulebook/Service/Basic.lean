import Rulebook.Rule.Cleaning
import Rulebook.Service.Error

/-!
# The service

The service keeps rules in a repository and evaluates rule texts.

* `create` takes the blanks off the identifier and cleans the text, and keeps the
  rule if the text is one.
* `combine` joins the rules of several identifiers into one text, in order of the
  identifiers.  Unknown identifiers are passed over as long as one is known.
* `evaluate` gives the verdict of a rule text on a record, or of the joined rules
  of identifiers if there is no text.  If it is asked to, it notes the outcome in
  the journal, and the verdict does not depend on whether that works.

The service remembers nothing but the repository.  A joined text goes back to whoever
asked for it.
-/

namespace Rulebook

open Rulebook.Text (trim trimmed isBlank isAllBlank)

/-- A service over a repository. -/
structure Service (σ : Type) where
  /-- The state of the repository. -/
  store : σ
  /-- Whether verdicts are noted in the journal. -/
  recording : Bool := true

/-- What to evaluate. -/
structure EvaluationRequest where
  /-- A rule text, which comes before the identifiers. -/
  expression : Option String := none
  /-- Identifiers of rules. -/
  ruleIds : Option (List String) := none
  /-- The record. -/
  data : Record := Table.empty

namespace Service

variable {σ : Type} [Repository σ]

/-! ## Identifiers -/

/-- The identifiers that are not blank, without the blanks around them. -/
def trimmedIds (ids : List String) : List String :=
  (ids.map trimmed).filter fun id => !id.isEmpty

/-- The identifiers of a list with commas. -/
def splitIds (list : String) : List String :=
  trimmedIds ((list.toList.splitOnP (· == ',')).map String.ofList)

/-! ## Rules -/

/-- Keep a rule, which replaces the rule of the same identifier. -/
def create (s : Service σ) (id expression : String) : Except ServiceError Rule × Service σ :=
  if isAllBlank id then (.error (.invalidRequest "rule id must not be empty"), s)
  else
    let rule : Rule := ⟨trimmed id, clean expression⟩
    match parseRule rule.expression with
    | .error e => (.error (.invalidRule e), s)
    | .ok _ =>
      match Repository.save s.store rule with
      | (.error e, store) => (.error (.ofStore e), { s with store })
      | (.ok (), store) => (.ok rule, { s with store })

/-- All rules in order of their identifiers. -/
def rules (s : Service σ) : Except ServiceError (List Rule) :=
  (Repository.rules s.store).mapError .ofStore

/-- Remove every rule, and say how many there were. -/
def clear (s : Service σ) : Except ServiceError Nat × Service σ :=
  match Repository.clear s.store with
  | (.error e, store) => (.error (.ofStore e), { s with store })
  | (.ok n, store) => (.ok n, { s with store })

/-! ## Combining -/

/-- The rules of identifiers joined into one text. -/
def combine (s : Service σ) (ids : List String) : Except ServiceError String :=
  match Repository.find s.store (trimmedIds ids) with
  | .error e => .error (.ofStore e)
  | .ok [] => .error .noRulesFound
  | .ok (rule :: rules) =>
    let text := Rulebook.combine ((rule :: rules).map (·.expression))
    match parseRule text with
    | .error e => .error (.invalidRule e)
    | .ok _ => .ok text

/-- The rules of a list of identifiers with commas joined into one text. -/
def combineList (s : Service σ) (list : String) : Except ServiceError String :=
  s.combine (splitIds list)

/-! ## Evaluating -/

/-- The text that a request asks to evaluate. -/
def textOf (s : Service σ) (request : EvaluationRequest) : Except ServiceError String :=
  match request.expression.filter (!isAllBlank ·), request.ruleIds with
  | some expression, _ => .ok expression
  | none, some ids => if ids.all isAllBlank then .error .missingExpression else s.combine ids
  | none, none => .error .missingExpression

/-- The verdict of a rule text on a record. -/
def judge (expression : String) (data : Record) : Except ServiceError Bool :=
  match parseRule expression with
  | .error e => .error (.invalidRule e)
  | .ok f => (f.verdict data).mapError .evaluation

/-- The service after a verdict. -/
def note (s : Service σ) (e : Evaluation) : Service σ :=
  if s.recording then { s with store := (Repository.record s.store e).2 } else s

/-- The verdict that a request asks for.  The stamp is for the journal. -/
def evaluate (s : Service σ) (request : EvaluationRequest) (stamp : Stamp) :
    Except ServiceError Bool × Service σ :=
  match s.textOf request with
  | .error e => (.error e, s)
  | .ok expression =>
    match judge expression request.data with
    | .error e => (.error e, s)
    | .ok result => (.ok result, s.note ⟨stamp, result, request.data, expression⟩)

example : splitIds " a, b ,,c " = ["a", "b", "c"] := by decide +kernel

end Service

end Rulebook
