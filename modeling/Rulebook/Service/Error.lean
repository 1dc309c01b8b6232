import Rulebook.Rule.Json
import Rulebook.Rule.Parser
import Rulebook.Rule.Verdict
import Rulebook.Store.Basic

/-!
# Errors of the service

A request fails because of what it asks, or because of what the service stands on.
An identifier that the repository cannot keep, and a value that a record cannot
hold, are faults of the request.
-/

namespace Rulebook

/-- Why the service does not do what a request asks. -/
inductive ServiceError where
  /-- The request is malformed or incomplete. -/
  | invalidRequest (reason : String)
  /-- There is neither a rule text nor an identifier to evaluate. -/
  | missingExpression
  /-- None of the identifiers is one of a rule. -/
  | noRulesFound
  /-- A rule text is no rule. -/
  | invalidRule (error : ParseError)
  /-- A rule has no verdict on the record. -/
  | evaluation (error : EvalError)
  /-- The repository fails. -/
  | repository (error : StoreError)
  /-- The service itself fails. -/
  | internal (reason : String)
  deriving DecidableEq

namespace ServiceError

/-- The message of an error. -/
def message : ServiceError → String
  | .invalidRequest reason => "Invalid request: " ++ reason
  | .missingExpression => "Invalid request: either 'expression' or 'rule_ids' is required"
  | .noRulesFound => "No valid rules found"
  | .invalidRule e => "Invalid rule syntax: " ++ e.message
  | .evaluation e => "Error evaluating rule: " ++ e.message
  | .repository e => "Storage error: " ++ e.message
  | .internal reason => "Internal error: " ++ reason

/-- Whether the request is to blame, and not the service. -/
def isOfRequest : ServiceError → Bool
  | .repository _ | .internal _ => false
  | _ => true

/-- The error for a failure of the repository. -/
def ofStore : StoreError → ServiceError
  | .invalidId id => .invalidRequest (StoreError.invalidId id).message
  | e => .repository e

/-- The error for a value that a record cannot hold. -/
def ofValue (e : ValueError) : ServiceError := .invalidRequest e.message

end ServiceError

end Rulebook
