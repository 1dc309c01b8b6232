import Rulebook.Proofs.StoredRule
import Rulebook.Proofs.TableParts
import Rulebook.Service.Call

/-!
# What a service keeps

A service in memory starts without rules, and calls change them.  `MemoryStore.Kept` is what
every call keeps: a rule stands at its own identifier, which is trimmed and not empty, and
its text is a rule text in clean form.  A call that fails leaves the rules alone, a rule
that replaces another has gone through the same checks, and clearing leaves none
(`MemoryStore.Kept.answer`).  So it holds wherever calls lead (`kept_reached`).

The rules that identifiers ask for are the part of the table at these identifiers
(`Table.restrict`).  They come in ascending order, each once, whatever the order of the
identifiers (`Service.mem_found`, `Service.pairwise_found`).

Kept texts are clean and can be read, so their chains put behind each other derive the
joined text (`Service.exists_joined_found`).  No kept rule makes a combination fail, except
for the nesting of the whole (`combine_of_reachable`).
-/

namespace Rulebook

open Rulebook.Text (isAllBlank isBlank lowered trim trimmed)

namespace MemoryStore

theorem find_eq (s : MemoryStore) (ids : List String) :
    s.find ids = (s.rules.restrict ids).values :=
  rfl

theorem mem_find {s : MemoryStore} {ids : List String} {rule : Rule} :
    rule ∈ s.find ids ↔ ∃ id ∈ ids, s.rules.get? id = some rule := by
  simp [find_eq, Table.mem_values, Table.get?_restrict]

end MemoryStore

/-! ## Identifiers -/

theorem Service.mem_trimmedIds {ids : List String} {id : String} :
    id ∈ Service.trimmedIds ids ↔ id ≠ "" ∧ ∃ i ∈ ids, trimmed i = id := by
  simp [Service.trimmedIds, and_comm]

/-! ## The invariant -/

/-- What the service has made sure of before it keeps a rule. -/
structure Rule.Kept (key : String) (rule : Rule) : Prop where
  /-- The rule stands at its identifier. -/
  id_eq : rule.id = key
  /-- The identifier is not empty. -/
  id_ne : rule.id ≠ ""
  /-- The identifier has no blanks around it. -/
  id_trimmed : trimmed rule.id = rule.id
  /-- The text is clean. -/
  is_clean : clean rule.expression = rule.expression
  /-- The text is a rule text. -/
  reads : ∃ f, parseRule rule.expression = .ok f

/-- Whether every rule in memory is one that the service has checked. -/
def MemoryStore.Kept (s : MemoryStore) : Prop :=
  ∀ key rule, s.rules.get? key = some rule → rule.Kept key

namespace MemoryStore.Kept

theorem empty (capacity : Nat) : (MemoryStore.empty capacity).Kept := by
  intro key rule h
  cases h

theorem save {s : MemoryStore} (h : s.Kept) {rule : Rule} (hrule : rule.Kept rule.id) :
    (s.save rule).Kept := by
  intro key rule' hget
  rw [MemoryStore.save, Table.get?_insert] at hget
  split at hget
  next heq =>
    cases hget
    exact heq ▸ hrule
  next => exact h key rule' hget

theorem record {s : MemoryStore} (h : s.Kept) (e : Evaluation) : (s.record e).Kept := by
  unfold MemoryStore.record
  split
  · exact h
  · exact h

theorem create {s : Service MemoryStore} (h : s.store.Kept) (id expression : String) :
    (s.create id expression).2.store.Kept := by
  cases hid : isAllBlank id with
  | true =>
      rw [Service.create, hid]
      exact h
  | false =>
      cases hf : parseRule (clean expression) with
      | error e =>
          rw [s.create_of_error hid hf]
          exact h
      | ok f =>
          rw [s.create_of_ok hid hf]
          refine h.save ⟨rfl, ?_, Text.trimmed_trimmed id, clean_clean expression, f, hf⟩
          rw [ne_eq, Text.trimmed_eq_empty_iff, hid]
          decide

theorem evaluate {s : Service MemoryStore} (h : s.store.Kept) (request : EvaluationRequest)
    (stamp : Stamp) : (s.evaluate request stamp).2.store.Kept := by
  unfold Service.evaluate
  split
  next => exact h
  next =>
    split
    next => exact h
    next =>
      unfold Service.note
      split
      · exact h.record _
      · exact h

/-- No call breaks what the service has made sure of. -/
theorem answer {s : Service MemoryStore} (h : s.store.Kept) (call : ServiceCall) :
    (s.answer call).2.store.Kept := by
  cases call with
  | create id expression => exact h.create id expression
  | rules => exact h
  | combine ids => exact h
  | combineList list => exact h
  | evaluate request stamp => exact h.evaluate request stamp
  | clear => exact empty s.store.capacity

end MemoryStore.Kept

theorem MemoryStore.kept_of_reachable {s : Service MemoryStore} (h : s.Reachable) :
    s.store.Kept := by
  obtain ⟨capacity, recording, calls, rfl⟩ := h
  exact Run.after_induction (P := fun s : Service MemoryStore => s.store.Kept)
    (fun _ call hs => hs.answer call) (Kept.empty capacity) calls

/-! ## Combining kept rules -/

namespace Service

variable {s : Service MemoryStore} {ids : List String}

/-- The rules that identifiers ask for. -/
def found (s : Service MemoryStore) (ids : List String) : List Rule := s.store.find (trimmedIds ids)

theorem find_eq_found : Repository.find s.store (trimmedIds ids) = .ok (s.found ids) := rfl

/-- The rules found are those at the trimmed identifiers.  An empty identifier is passed over, and
no rule is kept at one. -/
theorem mem_found (h : s.store.Kept) {rule : Rule} :
    rule ∈ s.found ids ↔ ∃ id ∈ ids, s.store.rules.get? (trimmed id) = some rule := by
  rw [found, MemoryStore.mem_find]
  constructor
  · rintro ⟨_, hmem, hget⟩
    obtain ⟨-, id, hid, rfl⟩ := mem_trimmedIds.mp hmem
    exact ⟨id, hid, hget⟩
  · rintro ⟨id, hid, hget⟩
    have hkept := h _ rule hget
    refine ⟨trimmed id, mem_trimmedIds.mpr ⟨?_, id, hid, rfl⟩, hget⟩
    intro hempty
    exact hkept.id_ne (hkept.id_eq.trans hempty)

theorem found_eq_nil_iff (h : s.store.Kept) :
    s.found ids = [] ↔ ∀ id ∈ ids, s.store.rules.get? (trimmed id) = none := by
  simp only [List.eq_nil_iff_forall_not_mem, mem_found h, Option.eq_none_iff_forall_ne_some]
  constructor
  · intro hnone id hid rule hget
    exact hnone rule ⟨id, hid, hget⟩
  · rintro hnone rule ⟨id, hid, hget⟩
    exact hnone id hid rule hget

/-- The rules found come in ascending order of their identifiers. -/
theorem pairwise_found (h : s.store.Kept) : (s.found ids).Pairwise (·.id < ·.id) := by
  rw [found, MemoryStore.find_eq, Table.values, List.pairwise_map]
  refine (s.store.rules.restrict (trimmedIds ids)).sorted.imp_of_mem ?_
  intro a b ha hb hlt
  have hid : ∀ e ∈ (s.store.rules.restrict (trimmedIds ids)).entries, e.2.id = e.1 := by
    intro e he
    rw [← Prod.eta e, Table.mem_entries_iff, Table.get?_restrict] at he
    split at he
    next => exact (h _ _ he).id_eq
    next => cases he
  rwa [hid a ha, hid b hb]

theorem kept_of_mem_found (h : s.store.Kept) {rule : Rule} (hrule : rule ∈ s.found ids) :
    rule.Kept rule.id := by
  obtain ⟨id, -, hget⟩ := (mem_found h).mp hrule
  have hkept := h _ rule hget
  exact hkept.id_eq ▸ hkept

/-- The text that the rules found are joined to. -/
def joinedText (s : Service MemoryStore) (ids : List String) : String :=
  Rulebook.combine ((s.found ids).map (·.expression))

theorem combine_of_found_eq_nil (hfound : s.found ids = []) :
    s.combine ids = .error .noRulesFound := by
  rw [combine, find_eq_found, hfound]

theorem combine_of_found_ne_nil (hfound : s.found ids ≠ []) :
    s.combine ids = match parseRule (s.joinedText ids) with
      | .error e => .error (.invalidRule e)
      | .ok _ => .ok (s.joinedText ids) := by
  rw [combine, find_eq_found, joinedText]
  cases hlist : s.found ids with
  | nil => exact absurd hlist hfound
  | cons rule rules => rfl

/-- The chains of kept rules, put behind each other, derive the joined text. -/
theorem exists_joined_found (h : s.store.Kept) (hfound : s.found ids ≠ []) :
    ∃ e es, List.Forall₂ Chain.DerivesText (e :: es) ((s.found ids).map (·.expression)) ∧
      (e.joined es).DerivesText (s.joinedText ids) := by
  refine Chain.exists_joined (by simpa using hfound) ?_ ?_
  · intro t ht
    obtain ⟨rule, hrule, rfl⟩ := List.mem_map.mp ht
    exact (kept_of_mem_found h hrule).is_clean
  · intro t ht
    obtain ⟨rule, hrule, rfl⟩ := List.mem_map.mp ht
    exact (kept_of_mem_found h hrule).reads

end Service

/-- Wherever calls lead, every rule in memory is one that the service has checked.  So the rules of
identifiers can be combined, if there are any, unless the whole nests too deep. -/
theorem combine_of_reachable {s : Service MemoryStore} (hs : s.Reachable) :
    (∀ key rule, s.store.rules.get? key = some rule → rule.Kept key) ∧
    ∀ ids,
      ((∃ text, s.combine ids = .ok text) ∨ s.combine ids = .error .noRulesFound ∨
        s.combine ids = .error (.invalidRule .tooDeep)) ∧
      (s.combine ids = .error .noRulesFound ↔
        ∀ id ∈ ids, s.store.rules.get? (trimmed id) = none) := by
  have hkept := MemoryStore.kept_of_reachable hs
  refine ⟨hkept, fun ids => ?_⟩
  rw [← Service.found_eq_nil_iff hkept]
  by_cases hfound : s.found ids = []
  · have hcombine := Service.combine_of_found_eq_nil hfound
    exact ⟨.inr (.inl hcombine), iff_of_true hcombine hfound⟩
  · obtain ⟨e, es, -, hwhole⟩ := Service.exists_joined_found hkept hfound
    rw [Service.combine_of_found_ne_nil hfound, hwhole.parseRule]
    split
    next e herror =>
      split at herror
      next => cases herror
      next =>
        cases herror
        exact ⟨.inr (.inr rfl), iff_of_false (by simp) hfound⟩
    next => exact ⟨.inl ⟨_, rfl⟩, iff_of_false (by simp) hfound⟩

/-- A rule that is refused, one that replaces another, and an identifier that no rule has. -/
theorem combine_of_reachable_replaced :
    ∃ s : Service MemoryStore, s.Reachable ∧ s.store.rules.get? "a" = some ⟨"a", "x > 2"⟩ ∧
      Rule.Kept "a" ⟨"a", "x > 2"⟩ ∧ s.combine ["b", " "] = .error .noRulesFound := by
  let calls : List ServiceCall :=
    [.create " a " "x > 1", .create "b" "y >> 1", .create "a" " X  > 2", .combine ["a", "b"]]
  have hs : (Service.reached 1 true calls).Reachable := ⟨1, true, calls, rfl⟩
  have hget : (Service.reached 1 true calls).store.rules.get? "a" = some ⟨"a", "x > 2"⟩ := by
    decide +kernel
  have hnone : ∀ id ∈ ["b", " "],
      (Service.reached 1 true calls).store.rules.get? (trimmed id) = none := by
    decide +kernel
  obtain ⟨hkept, hcombine⟩ := combine_of_reachable hs
  exact ⟨_, hs, hget, hkept "a" _ hget, (hcombine ["b", " "]).2.mpr hnone⟩

end Rulebook
