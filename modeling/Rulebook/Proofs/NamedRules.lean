import Rulebook.Proofs.KeptRules

/-!
# Which rules identifiers name

Identifiers *name the same rules* as others if the stored ones among them, trimmed, are the same
set (`Service.SameRules`).  The order, repetitions, blanks around an identifier, blank
identifiers and unknown ones do not count.

A look-up goes through a table, so it gives two such lists the same rules in the same order
(`Service.found_congr`), and all that comes after goes by these rules.  The one other thing a
request to evaluate looks at is whether any identifier is not blank (`evaluate_of_sameRules`).
-/

namespace Rulebook

open Rulebook.Text (isAllBlank trimmed)

namespace Service

variable {s : Service MemoryStore} {ids ids' : List String}

/-- Whether two lists of identifiers name the same rules. -/
def SameRules (s : Service MemoryStore) (ids ids' : List String) : Prop :=
  ∀ id, (s.store.rules.get? id).isSome = true → (id ∈ trimmedIds ids ↔ id ∈ trimmedIds ids')

theorem found_congr (h : s.SameRules ids ids') : s.found ids = s.found ids' := by
  rw [found, found, MemoryStore.find_eq, MemoryStore.find_eq]
  refine congrArg Table.values (Table.ext_get? fun key => ?_)
  rw [Table.get?_restrict, Table.get?_restrict]
  cases hget : s.store.rules.get? key with
  | none => rw [ite_self, ite_self]
  | some rule => exact if_congr (h key (by rw [hget]; rfl)) rfl rfl

/-- A stored rule is found exactly if its identifier is named. -/
theorem mem_found_iff_mem_trimmedIds (h : s.store.Kept) {rule : Rule}
    (hget : s.store.rules.get? rule.id = some rule) :
    rule ∈ s.found ids ↔ rule.id ∈ trimmedIds ids := by
  rw [found, MemoryStore.mem_find]
  constructor
  · rintro ⟨id, hid, hget'⟩
    rwa [(h id rule hget').id_eq]
  · exact fun hid => ⟨rule.id, hid, hget⟩

/-- The rules found tell which rules are named. -/
theorem found_eq_iff (h : s.store.Kept) : s.found ids = s.found ids' ↔ s.SameRules ids ids' := by
  refine ⟨fun heq id hsome => ?_, found_congr⟩
  obtain ⟨rule, hget⟩ := Option.isSome_iff_exists.mp hsome
  obtain rfl := (h id rule hget).id_eq
  rw [← mem_found_iff_mem_trimmedIds h hget, heq, mem_found_iff_mem_trimmedIds h hget]

/-- A list of rules is joined to the same text, whatever names them. -/
theorem combine_of_found (h : s.found ids = s.found ids') : s.combine ids = s.combine ids' := by
  rw [combine, combine, find_eq_found, find_eq_found, h]

/-- Blank identifiers find no rule. -/
theorem found_of_all_isAllBlank (h : ids.all isAllBlank = true) : s.found ids = [] := by
  have hnil : trimmedIds ids = [] := by
    rw [List.eq_nil_iff_forall_not_mem]
    intro id hid
    obtain ⟨hne, i, hi, rfl⟩ := mem_trimmedIds.mp hid
    exact hne (Text.trimmed_eq_empty_iff.mpr (List.all_eq_true.mp h i hi))
  rw [found, hnil]
  rfl

/-! ## Requests -/

/-- Blank identifiers and unknown ones fail for different reasons. -/
theorem evaluate_ne_of_all_isAllBlank {expression : Option String}
    (hblank : ∀ text ∈ expression, isAllBlank text = true) (hfound : s.found ids = s.found ids')
    (hids : ids.all isAllBlank = true) (hids' : ids'.all isAllBlank = false) (data : Record)
    (stamp : Stamp) : (s.evaluate ⟨expression, some ids, data⟩ stamp).1 ≠
      (s.evaluate ⟨expression, some ids', data⟩ stamp).1 := by
  have htext : s.textOf ⟨expression, some ids, data⟩ = .error .missingExpression := by
    rw [s.textOf_ids_eq hblank, hids, if_pos rfl]
  have htext' : s.textOf ⟨expression, some ids', data⟩ = .error .noRulesFound := by
    rw [s.textOf_ids_eq hblank, hids', if_neg Bool.false_ne_true,
      combine_of_found_eq_nil (hfound ▸ found_of_all_isAllBlank hids)]
  rw [s.evaluate_of_textOf_error htext, s.evaluate_of_textOf_error htext']
  exact fun h => nomatch h

end Service

/-- Identifiers are combined and evaluated by the set of stored rules that they name: the same set
gives the same text, and the same verdict and journal, unless only one of the lists has an
identifier that is not blank. -/
theorem evaluate_of_sameRules {s : Service MemoryStore} (hs : s.Reachable)
    (ids ids' : List String) :
    (s.found ids = s.found ids' ↔ s.SameRules ids ids') ∧
    (s.SameRules ids ids' → s.combine ids = s.combine ids' ∧
      ∀ (expression : Option String) (data : Record) (stamp : Stamp),
        (∀ text ∈ expression, isAllBlank text = true) →
        (s.evaluate ⟨expression, some ids, data⟩ stamp =
            s.evaluate ⟨expression, some ids', data⟩ stamp ↔
          ids.all isAllBlank = ids'.all isAllBlank)) := by
  refine ⟨Service.found_eq_iff (MemoryStore.kept_of_reachable hs), fun hsame => ?_⟩
  have hfound := Service.found_congr hsame
  have hcombine := Service.combine_of_found hfound
  refine ⟨hcombine, fun expression data stamp hblank => ⟨fun heq => ?_, fun hall => ?_⟩⟩
  · have hfst := congrArg Prod.fst heq
    cases hids : ids.all isAllBlank with
    | true =>
      cases hids' : ids'.all isAllBlank with
      | true => rfl
      | false =>
        exact absurd hfst
          (Service.evaluate_ne_of_all_isAllBlank hblank hfound hids hids' data stamp)
    | false =>
      cases hids' : ids'.all isAllBlank with
      | true =>
        exact absurd hfst.symm
          (Service.evaluate_ne_of_all_isAllBlank hblank hfound.symm hids' hids data stamp)
      | false => rfl
  · have htext :
        s.textOf ⟨expression, some ids, data⟩ = s.textOf ⟨expression, some ids', data⟩ := by
      rw [s.textOf_ids_eq hblank, s.textOf_ids_eq hblank, hall, hcombine]
    exact s.evaluate_of_textOf_eq htext rfl stamp

/-- Another order, repetitions, blanks, an unknown identifier and a blank one make no difference. -/
theorem evaluate_of_sameRules_shuffled :
    ∃ s : Service MemoryStore, s.Reachable ∧
      s.SameRules ["b", "a"] [" a", "c", " ", "b\t", "a"] ∧
      s.combine ["b", "a"] = s.combine [" a", "c", " ", "b\t", "a"] ∧
      ∀ data stamp, s.evaluate ⟨none, some ["b", "a"], data⟩ stamp =
        s.evaluate ⟨none, some [" a", "c", " ", "b\t", "a"], data⟩ stamp := by
  let calls : List ServiceCall := [.create "b" "y > 1 or z = 2", .create "a" "x > 1"]
  have hs : (Service.reached 1 true calls).Reachable := ⟨1, true, calls, rfl⟩
  have hfound : (Service.reached 1 true calls).found ["b", "a"] =
      (Service.reached 1 true calls).found [" a", "c", " ", "b\t", "a"] := by
    decide +kernel
  obtain ⟨hiff, hsame⟩ := evaluate_of_sameRules hs ["b", "a"] [" a", "c", " ", "b\t", "a"]
  obtain ⟨hcombine, heval⟩ := hsame (hiff.mp hfound)
  refine ⟨_, hs, hiff.mp hfound, hcombine, fun data stamp => ?_⟩
  exact (heval none data stamp (fun text htext => nomatch htext)).mpr (by decide +kernel)

end Rulebook
