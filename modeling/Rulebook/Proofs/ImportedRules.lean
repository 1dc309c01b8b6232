import Rulebook.Proofs.KeptRules

/-!
# Rules that are imported again

The rules of a service can be listed and given to a service again, one by one and in any
order.  What the service has made sure of (`Rule.Kept`) is just what it asks for, so it takes
every rule and changes none: the identifier is trimmed already, the text is clean and can be
read (`Service.create_of_kept`).  Rules have different identifiers, so none replaces another
one, and the listing is the same in the end (`import_of_listing`).
-/

namespace Rulebook

open Rulebook.Text (isAllBlank trimmed)

namespace Rule

/-- The call that keeps a rule as it is. -/
def importCall (rule : Rule) : ServiceCall := .create rule.id rule.expression

theorem Kept.not_isAllBlank {rule : Rule} {key : String} (h : rule.Kept key) :
    isAllBlank rule.id = false := by
  rw [Bool.eq_false_iff, ne_eq, ← Text.trimmed_eq_empty_iff, h.id_trimmed]
  exact h.id_ne

end Rule

namespace Service

/-- A rule that a service has made sure of is taken as it is. -/
theorem create_of_kept (s : Service MemoryStore) {rule : Rule} {key : String}
    (h : rule.Kept key) :
    s.create rule.id rule.expression = (.ok rule, { s with store := s.store.save rule }) := by
  obtain ⟨f, hf⟩ := h.reads
  rw [← h.is_clean] at hf
  rw [s.create_of_ok h.not_isAllBlank hf, h.id_trimmed, h.is_clean]

theorem answer_importCall (s : Service MemoryStore) {rule : Rule} {key : String}
    (h : rule.Kept key) :
    s.answer rule.importCall = (.created (.ok rule), { s with store := s.store.save rule }) := by
  rw [Rule.importCall, answer, s.create_of_kept h]

/-- The service behind the import of rules. -/
def imported (s : Service MemoryStore) (rules : List Rule) : Service MemoryStore :=
  Run.after answer s (rules.map Rule.importCall)

theorem imported_cons (s : Service MemoryStore) {rule : Rule} {key : String} (h : rule.Kept key)
    (rules : List Rule) :
    s.imported (rule :: rules) = imported { s with store := s.store.save rule } rules := by
  rw [imported, List.map_cons, Run.after, s.answer_importCall h]
  rfl

/-- Every rule is taken and answered as it is. -/
theorem transcript_imports (s : Service MemoryStore) {rules : List Rule}
    (h : ∀ rule ∈ rules, rule.Kept rule.id) :
    Run.transcript answer s (rules.map Rule.importCall) =
      rules.map fun rule => (rule.importCall, .created (.ok rule)) := by
  induction rules generalizing s with
  | nil => rfl
  | cons rule rules ih =>
      obtain ⟨hrule, hrules⟩ := List.forall_mem_cons.mp h
      rw [List.map_cons, List.map_cons, Run.transcript, s.answer_importCall hrule, ih _ hrules]

/-- Where nothing but rules of a table stands, and the others are imported, that table stands in the
end. -/
theorem rules_imported {u : Table Rule} (hu : ∀ key rule, u.get? key = some rule → rule.Kept key) :
    ∀ {rules : List Rule} {s : Service MemoryStore},
      (∀ rule ∈ rules, u.get? rule.id = some rule) →
      (∀ key rule, s.store.rules.get? key = some rule → u.get? key = some rule) →
      (∀ key rule, u.get? key = some rule →
        rule ∈ rules ∨ s.store.rules.get? key = some rule) →
      (s.imported rules).store.rules = u
  | [], s, _, hsub, hsup => by
      refine Table.ext_get? fun key => Option.ext fun rule => ⟨hsub key rule, fun hget => ?_⟩
      exact (hsup key rule hget).resolve_left List.not_mem_nil
  | rule :: rules, s, hmem, hsub, hsup => by
      obtain ⟨hrule, hrules⟩ := List.forall_mem_cons.mp hmem
      rw [s.imported_cons (hu _ _ hrule)]
      refine rules_imported hu hrules (fun key rule' hget => ?_) fun key rule' hget => ?_
      · rw [MemoryStore.save, Table.get?_insert] at hget
        split at hget
        next heq =>
          cases hget
          rw [heq]
          exact hrule
        next => exact hsub key rule' hget
      · rw [MemoryStore.save, Table.get?_insert]
        rcases hsup key rule' hget with hmem' | hold
        · rcases List.mem_cons.mp hmem' with rfl | hmem'
          · exact .inr (if_pos (hu key rule' hget).id_eq.symm)
          · exact .inl hmem'
        · by_cases heq : key = rule.id
          · subst heq
            rw [if_pos rfl]
            exact .inr (hrule.symm.trans hget)
          · rw [if_neg heq]
            exact .inr hold

end Service

/-- The listing of a service, imported in any order by the same service or by one without rules:
every rule is taken and comes back unchanged, and the listing is the same in the end. -/
theorem import_of_listing {s t : Service MemoryStore} (hs : s.Reachable)
    (ht : t = s ∨ t.rules = .ok []) {listed rules : List Rule} (hlisted : s.rules = .ok listed)
    (hperm : rules.Perm listed) :
    Run.transcript Service.answer t (rules.map Rule.importCall) =
        rules.map (fun rule => (rule.importCall, .created (.ok rule))) ∧
      (Run.after Service.answer t (rules.map Rule.importCall)).rules = .ok listed := by
  have hkept := MemoryStore.kept_of_reachable hs
  obtain rfl : s.store.rules.values = listed := Except.ok.inj hlisted
  have hmem : ∀ rule, rule ∈ rules ↔ ∃ key, s.store.rules.get? key = some rule :=
    fun rule => hperm.mem_iff.trans Table.mem_values
  have hrules : ∀ rule ∈ rules, s.store.rules.get? rule.id = some rule := by
    intro rule hrule
    obtain ⟨key, hget⟩ := (hmem rule).mp hrule
    rw [(hkept key rule hget).id_eq]
    exact hget
  have hsub : ∀ key rule, t.store.rules.get? key = some rule →
      s.store.rules.get? key = some rule := by
    intro key rule hget
    rcases ht with rfl | hempty
    · exact hget
    · have hnil : t.store.rules.values = [] := Except.ok.inj hempty
      have := Table.mem_values.mpr ⟨key, hget⟩
      rw [hnil] at this
      cases this
  refine ⟨t.transcript_imports fun rule hrule => hkept _ rule (hrules rule hrule), ?_⟩
  have hend := Service.rules_imported hkept hrules hsub
    fun key rule hget => .inl ((hmem rule).mpr ⟨key, hget⟩)
  exact congrArg (fun u : Table Rule => Except.ok u.values) hend

/-- The rules of one service in descending order, for another one that has none. -/
theorem import_of_listing_descending :
    ∃ s t : Service MemoryStore, s.Reachable ∧ t.rules = .ok [] ∧
      s.rules = .ok [⟨"a", "x > 1"⟩, ⟨"b", "y = 'u v'"⟩] ∧
      [⟨"b", "y = 'u v'"⟩, ⟨"a", "x > 1"⟩].Perm [(⟨"a", "x > 1"⟩ : Rule), ⟨"b", "y = 'u v'"⟩] ∧
      (Run.after Service.answer t
        ([⟨"b", "y = 'u v'"⟩, ⟨"a", "x > 1"⟩].map Rule.importCall)).rules =
          .ok [⟨"a", "x > 1"⟩, ⟨"b", "y = 'u v'"⟩] := by
  let calls : List ServiceCall := [.create " b" " Y = 'U  V' ", .create "a" "X > 1"]
  have hs : (Service.reached 1 true calls).Reachable := ⟨1, true, calls, rfl⟩
  have hvalues : (Service.reached 1 true calls).store.rules.values =
      [⟨"a", "x > 1"⟩, ⟨"b", "y = 'u v'"⟩] := by
    decide +kernel
  have hlisted : (Service.reached 1 true calls).rules =
      .ok [⟨"a", "x > 1"⟩, ⟨"b", "y = 'u v'"⟩] :=
    congrArg Except.ok hvalues
  have ht : (Service.reached 0 false []).rules = .ok [] := rfl
  have hperm := List.Perm.swap (⟨"a", "x > 1"⟩ : Rule) ⟨"b", "y = 'u v'"⟩ []
  exact ⟨_, _, hs, ht, hlisted, hperm, (import_of_listing hs (.inr ht) hlisted hperm).2⟩

end Rulebook
