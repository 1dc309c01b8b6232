import Mathlib.Data.List.Induction
import Rulebook.Proofs.ByteOrder
import Rulebook.Proofs.TableParts
import Rulebook.Store.Call

/-!
# What a repository in memory holds

Which rules a repository holds is told by the calls that were made of it.  A call *leaves* a
rule if it saves it and no later call saves another one of its identifier or removes all
rules (`StoreCall.Leave`).  `MemoryStore.get?_reached` says that the table of rules has these
and no others, each at its own identifier.

What the operations answer follows from that (`memory_of_calls`).  The listing has the rules
that are left, in the order of the bytes of their identifiers.  A look-up is the part of the
listing whose identifiers are asked for.  The removal counts the listing, and the operations
that read leave the repository as it is.
-/

namespace Rulebook

/-! ## What calls leave -/

namespace StoreCall

/-- Whether calls leave a rule: one of them saves it, and none after that saves a rule of its
identifier or removes all rules. -/
def Leave (calls : List StoreCall) (rule : Rule) : Prop :=
  ∃ before after, calls = before ++ .save rule :: after ∧
    .clear ∉ after ∧ ∀ r, .save r ∈ after → r.id ≠ rule.id

/-- Whether a rule of an identifier was saved after the last removal of all rules. -/
def HasSaved (calls : List StoreCall) (id : String) : Prop :=
  ∃ before rule after, calls = before ++ .save rule :: after ∧ .clear ∉ after ∧ rule.id = id

theorem not_leave_nil (rule : Rule) : ¬ Leave [] rule := by
  rintro ⟨before, after, heq, -⟩
  exact List.append_ne_nil_of_right_ne_nil before (List.cons_ne_nil _ _) heq.symm

/-- The last call decides, unless it leaves a rule alone. -/
theorem leave_concat {calls : List StoreCall} {c : StoreCall} {rule : Rule} :
    Leave (calls ++ [c]) rule ↔
      c = .save rule ∨ (Leave calls rule ∧ c ≠ .clear ∧ ∀ r, c = .save r → r.id ≠ rule.id) := by
  constructor
  · rintro ⟨before, after, heq, hclear, hsave⟩
    cases after using List.reverseRecOn with
    | nil =>
        obtain ⟨-, hlast⟩ := List.append_inj' heq rfl
        exact .inl (List.singleton_inj.mp hlast)
    | append_singleton after last =>
        rw [← List.cons_append, ← List.append_assoc] at heq
        obtain ⟨hcalls, hlast⟩ := List.append_inj' heq rfl
        obtain rfl := List.singleton_inj.mp hlast
        simp only [List.mem_append, List.mem_singleton, not_or] at hclear hsave
        refine .inr ⟨⟨before, after, hcalls, hclear.1, fun r hr => hsave r (.inl hr)⟩, ?_, ?_⟩
        · exact Ne.symm hclear.2
        · exact fun r hr => hsave r (.inr hr.symm)
  · rintro (rfl | ⟨⟨before, after, rfl, hclear, hsave⟩, hc, hother⟩)
    · exact ⟨calls, [], rfl, List.not_mem_nil, fun r hr => by cases hr⟩
    · refine ⟨before, after ++ [c], by simp, ?_, fun r hr => ?_⟩
      · simpa [hclear] using Ne.symm hc
      · rcases List.mem_append.mp hr with hr | hr
        · exact hsave r hr
        · exact hother r (List.mem_singleton.mp hr).symm

/-- Of every identifier that was saved since the last removal one rule is left. -/
theorem exists_leave_iff {calls : List StoreCall} {id : String} :
    (∃ rule, Leave calls rule ∧ rule.id = id) ↔ HasSaved calls id := by
  constructor
  · rintro ⟨rule, ⟨before, after, heq, hclear, -⟩, hid⟩
    exact ⟨before, rule, after, heq, hclear, hid⟩
  · rintro ⟨before, rule, after, rfl, hclear, hid⟩
    -- by induction on the calls after the one that saves
    induction after using List.reverseRecOn with
    | nil => exact ⟨rule, leave_concat.mpr (.inl rfl), hid⟩
    | append_singleton after c ih =>
        simp only [List.mem_append, List.mem_singleton, not_or] at hclear
        rw [← List.cons_append, ← List.append_assoc]
        by_cases hc : ∃ r, c = .save r ∧ r.id = id
        · obtain ⟨r, rfl, hr⟩ := hc
          exact ⟨r, leave_concat.mpr (.inl rfl), hr⟩
        · obtain ⟨rule', hleave, hid'⟩ := ih hclear.1
          refine ⟨rule', leave_concat.mpr (.inr ⟨hleave, Ne.symm hclear.2, ?_⟩), hid'⟩
          exact fun r hr heq => hc ⟨r, hr, heq.trans hid'⟩

end StoreCall

/-! ## The rules in memory -/

namespace MemoryStore

/-- The store that calls lead to from one without rules. -/
def reached (capacity : Nat) (calls : List StoreCall) : MemoryStore :=
  Run.after answer (empty capacity) calls

theorem reached_concat (capacity : Nat) (calls : List StoreCall) (c : StoreCall) :
    reached capacity (calls ++ [c]) = ((reached capacity calls).answer c).2 :=
  Run.after_concat answer (empty capacity) calls c

/-- The rules behind a call. -/
theorem get?_answer (s : MemoryStore) (call : StoreCall) (key : String) :
    (s.answer call).2.rules.get? key =
      match call with
      | .save rule => if key = rule.id then some rule else s.rules.get? key
      | .clear => none
      | .rules | .find _ | .reopen => s.rules.get? key := by
  cases call with
  | save rule => exact Table.get?_insert s.rules rule.id key rule
  | clear => rfl
  | rules => rfl
  | find ids => rfl
  | reopen => rfl

/-- The rules in memory are those that the calls leave, each at its identifier. -/
theorem get?_reached (capacity : Nat) (calls : List StoreCall) (key : String) (rule : Rule) :
    (reached capacity calls).rules.get? key = some rule ↔
      rule.id = key ∧ StoreCall.Leave calls rule := by
  induction calls using List.reverseRecOn with
  | nil => exact iff_of_false (fun h => by cases h) fun h => StoreCall.not_leave_nil rule h.2
  | append_singleton calls c ih =>
      rw [reached_concat, get?_answer, StoreCall.leave_concat]
      cases c with
      | save r =>
          simp only [StoreCall.save.injEq, ne_eq, reduceCtorEq, not_false_eq_true, true_and,
            forall_eq']
          split
          next hkey =>
            subst hkey
            rw [Option.some.injEq]
            constructor
            · rintro rfl
              exact ⟨rfl, .inl rfl⟩
            · rintro ⟨hid, rfl | ⟨-, hne⟩⟩
              · rfl
              · exact absurd hid.symm hne
          next hkey =>
            rw [ih]
            constructor
            · rintro ⟨rfl, hleave⟩
              exact ⟨rfl, .inr ⟨hleave, Ne.symm hkey⟩⟩
            · rintro ⟨rfl, rfl | ⟨hleave, -⟩⟩
              · exact absurd rfl hkey
              · exact ⟨rfl, hleave⟩
      | clear => simp
      | rules => simpa using ih
      | find ids => simpa using ih
      | reopen => simpa using ih

/-- Every rule stands at its own identifier. -/
theorem id_eq_of_reached {capacity : Nat} {calls : List StoreCall} {key : String} {rule : Rule}
    (h : (reached capacity calls).rules.get? key = some rule) : rule.id = key :=
  ((get?_reached capacity calls key rule).mp h).1

end MemoryStore

/-! ## What the operations answer -/

/-- What a repository in memory answers after calls. -/
structure MemoryStore.Tells (s : MemoryStore) (calls : List StoreCall) (listed : List Rule) :
    Prop where
  /-- The listing. -/
  rules_eq : Repository.rules s = .ok listed
  /-- It ascends strictly in the order of the bytes of the identifiers. -/
  ascending : (listed.map fun rule => Text.bytes rule.id).Pairwise (· < ·)
  /-- It has the identifiers that were saved since the last removal. -/
  mem_ids : ∀ id, id ∈ listed.map (·.id) ↔ StoreCall.HasSaved calls id
  /-- It has of every identifier the rule that was saved last. -/
  mem_listed : ∀ rule, rule ∈ listed ↔ StoreCall.Leave calls rule
  /-- A look-up finds what of the listing is asked for, in the same order. -/
  find_eq : ∀ ids, Repository.find s ids = .ok (listed.filter fun rule => rule.id ∈ ids)
  /-- A removal counts the listing. -/
  clear_eq : (Repository.clear s).1 = .ok listed.length
  /-- A removal leaves no rule. -/
  rules_clear : Repository.rules (Repository.clear s).2 = .ok []
  /-- A listing changes nothing. -/
  answer_rules : (s.answer .rules).2 = s
  /-- A look-up changes nothing. -/
  answer_find : ∀ ids, (s.answer (.find ids)).2 = s

/-- What a repository in memory answers after any calls is told by the calls that save or remove. -/
theorem memory_of_calls (capacity : Nat) (calls : List StoreCall) :
    ∃ listed, (MemoryStore.reached capacity calls).Tells calls listed := by
  have hkey : ∀ key rule, (MemoryStore.reached capacity calls).rules.get? key = some rule →
      rule.id = key :=
    fun _ _ => MemoryStore.id_eq_of_reached
  have hmem : ∀ rule, rule ∈ (MemoryStore.reached capacity calls).rules.values ↔
      StoreCall.Leave calls rule := by
    intro rule
    simp only [Table.mem_values, MemoryStore.get?_reached, exists_eq_left']
  refine ⟨(MemoryStore.reached capacity calls).rules.values, ?_⟩
  exact {
    rules_eq := rfl
    ascending := List.pairwise_map.mpr ((Table.pairwise_values hkey).imp Text.bytes_lt)
    mem_ids := fun id => by
      rw [← StoreCall.exists_leave_iff, List.mem_map]
      simp only [hmem]
    mem_listed := hmem
    find_eq := fun ids => congrArg Except.ok (Table.values_restrict hkey ids)
    clear_eq := congrArg Except.ok (List.length_map _).symm
    rules_clear := rfl
    answer_rules := rfl
    answer_find := fun _ => rfl }

end Rulebook
