import Rulebook.Run
import Rulebook.Service.Basic
import Rulebook.Store.Memory

/-!
# Calls of the service

A call is one request to the service, and every request has its own kind of answer.
`Service.answer` takes a call, `Service.reached` is where calls lead from a service in
memory that has no rules yet, and a service is *reachable* if calls lead to it.
-/

namespace Rulebook

/-- A request to the service. -/
inductive ServiceCall where
  /-- Keep a rule. -/
  | create (id expression : String)
  /-- List the rules. -/
  | rules
  /-- Join the rules of identifiers. -/
  | combine (ids : List String)
  /-- Join the rules of a list of identifiers with commas. -/
  | combineList (list : String)
  /-- Give a verdict.  The stamp is for the journal. -/
  | evaluate (request : EvaluationRequest) (stamp : Stamp)
  /-- Remove every rule. -/
  | clear

/-- What the service answers. -/
inductive ServiceAnswer where
  /-- The rule that is kept now. -/
  | created (outcome : Except ServiceError Rule)
  /-- The rules. -/
  | listed (outcome : Except ServiceError (List Rule))
  /-- The joined text. -/
  | combined (outcome : Except ServiceError String)
  /-- The verdict. -/
  | evaluated (outcome : Except ServiceError Bool)
  /-- The number of rules that were removed. -/
  | cleared (outcome : Except ServiceError Nat)

namespace Service

/-- What the service answers to a call, and the service behind it. -/
def answer {σ : Type} [Repository σ] (s : Service σ) : ServiceCall → ServiceAnswer × Service σ
  | .create id expression => (.created (s.create id expression).1, (s.create id expression).2)
  | .rules => (.listed s.rules, s)
  | .combine ids => (.combined (s.combine ids), s)
  | .combineList list => (.combined (s.combineList list), s)
  | .evaluate request stamp =>
      (.evaluated (s.evaluate request stamp).1, (s.evaluate request stamp).2)
  | .clear => (.cleared s.clear.1, s.clear.2)

/-- The service that calls lead to from one without rules. -/
def reached (capacity : Nat) (recording : Bool) (calls : List ServiceCall) : Service MemoryStore :=
  Run.after answer ⟨MemoryStore.empty capacity, recording⟩ calls

/-- Whether calls lead to a service. -/
def Reachable (s : Service MemoryStore) : Prop :=
  ∃ capacity recording calls, s = reached capacity recording calls

end Service

end Rulebook
