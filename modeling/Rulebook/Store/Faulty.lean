import Rulebook.Store.Basic

/-!
# Repositories that fail

Two ways in which storage fails, for whoever wants to know what happens then.
`Unrecorded` keeps rules as another repository does, and its journal fails at
every evaluation.  `Unavailable` fails at every call.
-/

namespace Rulebook

/-- A repository whose journal takes nothing. -/
structure Unrecorded (σ : Type) where
  /-- The repository that keeps the rules. -/
  store : σ
  /-- Why the journal fails. -/
  reason : String

instance {σ : Type} [Repository σ] : Repository (Unrecorded σ) where
  save s rule := let (outcome, store) := Repository.save s.store rule; (outcome, { s with store })
  rules s := Repository.rules s.store
  find s ids := Repository.find s.store ids
  clear s := let (outcome, store) := Repository.clear s.store; (outcome, { s with store })
  record s _ := (.error (.other s.reason), s)

/-- A repository that fails at every call. -/
structure Unavailable where
  /-- Why it fails. -/
  reason : String

instance : Repository Unavailable where
  save s _ := (.error (.other s.reason), s)
  rules s := .error (.other s.reason)
  find s _ := .error (.other s.reason)
  clear s := (.error (.other s.reason), s)
  record s _ := (.error (.other s.reason), s)

end Rulebook
