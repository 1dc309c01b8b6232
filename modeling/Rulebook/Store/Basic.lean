import Rulebook.Store.Evaluation
import Rulebook.Store.Folder

/-!
# Repositories

A *rule* is a rule text under an identifier.  A *repository* keeps rules and a
journal of evaluations.  `Repository σ` says what a state of type `σ` can do: save
a rule, list the rules, find rules by their identifiers, remove all rules, and
take an evaluation into the journal.

The operations that write return a state along with their outcome, also when they
fail, because a failure may leave something behind.  The operations that read
return no state, so they cannot change one.

Texts are kept as they are.  What a rule text means is not known here.
-/

namespace Rulebook

/-- A rule text under an identifier. -/
structure Rule where
  /-- The identifier. -/
  id : String
  /-- The text. -/
  expression : String
  deriving DecidableEq, Inhabited

/-- A rule as JSON. -/
def Rule.toJson (r : Rule) : Json :=
  .object [("id", .string r.id), ("expression", .string r.expression)]

/-- Why a repository cannot do what is asked. -/
inductive StoreError where
  /-- A file or folder cannot be used. -/
  | io (fault : FileFault)
  /-- The identifier cannot be the name of a file. -/
  | invalidId (id : String)
  /-- Another reason. -/
  | other (reason : String)
  deriving DecidableEq

/-- The message of an error. -/
def StoreError.message : StoreError → String
  | .io fault => "I/O error: " ++ fault.message
  | .invalidId id => "Invalid rule id: '" ++ id ++ "'"
  | .other reason => "Repository error: " ++ reason

/-- What a repository can do whose state is of a type. -/
class Repository (σ : Type) where
  /-- Save a rule, which replaces the rule of the same identifier. -/
  save : σ → Rule → Except StoreError Unit × σ
  /-- All rules in order of their identifiers. -/
  rules : σ → Except StoreError (List Rule)
  /-- The rules of the given identifiers, in order of these.  Unknown ones are passed over. -/
  find : σ → List String → Except StoreError (List Rule)
  /-- Remove every rule, and say how many there were. -/
  clear : σ → Except StoreError Nat × σ
  /-- Take an evaluation into the journal. -/
  record : σ → Evaluation → Except StoreError Unit × σ

end Rulebook
