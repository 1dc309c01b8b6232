import Rulebook.Store.Basic

/-!
# Rules in memory

The rules are a table, and the journal is a list with the oldest evaluation first.
The journal has a capacity.  When it is full, the oldest evaluation makes room for
the new one, and a journal of capacity zero takes nothing.
-/

namespace Rulebook

/-- Rules and evaluations in memory. -/
structure MemoryStore where
  /-- The rules at their identifiers. -/
  rules : Table Rule
  /-- The evaluations, the oldest first. -/
  journal : List Evaluation
  /-- The number of evaluations that are kept. -/
  capacity : Nat

namespace MemoryStore

/-- The number of evaluations that are kept if nothing else is said. -/
def defaultCapacity : Nat := 10000

/-- The store without rules and evaluations. -/
def empty (capacity : Nat) : MemoryStore := ⟨Table.empty, [], capacity⟩

instance : Inhabited MemoryStore := ⟨empty defaultCapacity⟩

/-- The store with one more rule. -/
def save (s : MemoryStore) (rule : Rule) : MemoryStore :=
  { s with rules := s.rules.insert rule.id rule }

/-- The rules of the given identifiers, in order of these. -/
def find (s : MemoryStore) (ids : List String) : List Rule :=
  (Table.ofList (ids.filterMap fun id => (s.rules.get? id).map fun rule => (id, rule))).values

/-- The store without rules. -/
def clear (s : MemoryStore) : MemoryStore := { s with rules := Table.empty }

/-- The journal with one more evaluation. -/
def record (s : MemoryStore) (e : Evaluation) : MemoryStore :=
  if s.capacity = 0 then s
  else { s with journal := s.journal.drop (s.journal.length + 1 - s.capacity) ++ [e] }

instance : Repository MemoryStore where
  save s rule := (.ok (), s.save rule)
  rules s := .ok s.rules.values
  find s ids := .ok (s.find ids)
  clear s := (.ok s.rules.size, s.clear)
  record s e := (.ok (), s.record e)

end MemoryStore

end Rulebook
