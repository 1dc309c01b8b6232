import Mathlib.Data.List.DropRight
import Rulebook.Text.Blank

/-!
# Trimmed texts

`trim` takes blanks off both ends of a text and nothing else (`exists_trim`), so a text
without blanks at its ends is its own trimmed form, and trimming twice is trimming once.
-/

namespace Rulebook.Text

theorem trim_eq (cs : List Char) : trim cs = (cs.dropWhile isBlank).rdropWhile isBlank := rfl

/-- A text is a trimmed text with blanks around it. -/
theorem exists_trim (cs : List Char) : ∃ before after, cs = before ++ trim cs ++ after ∧
    (∀ c ∈ before, isBlank c = true) ∧ ∀ c ∈ after, isBlank c = true := by
  refine ⟨cs.takeWhile isBlank, (cs.dropWhile isBlank).rtakeWhile isBlank, ?_,
    fun c hc => List.mem_takeWhile_imp hc, fun c hc => List.mem_rtakeWhile_imp hc⟩
  rw [trim_eq, List.append_assoc, List.rdropWhile_append_rtakeWhile,
    List.takeWhile_append_dropWhile]

theorem mem_of_mem_trim {c : Char} {cs : List Char} (h : c ∈ trim cs) : c ∈ cs := by
  obtain ⟨before, after, hcs, -, -⟩ := exists_trim cs
  rw [hcs]
  exact List.mem_append_left _ (List.mem_append_right _ h)

/-- A text that begins and ends with no blank is trimmed. -/
theorem trim_eq_self {cs : List Char} (hhead : ∀ c ∈ cs.head?, isBlank c = false)
    (hlast : ∀ c ∈ cs.getLast?, isBlank c = false) : trim cs = cs := by
  cases cs with
  | nil => rfl
  | cons c rest =>
      have hc : isBlank c = false := hhead c rfl
      rw [trim_eq, List.dropWhile_cons_of_neg (by simp [hc]), List.rdropWhile_eq_self_iff]
      intro hne
      have hlast' := hlast ((c :: rest).getLast hne) (List.getLast_mem_getLast? hne)
      simp [hlast']

theorem trim_of_not_blank {cs : List Char} (h : ∀ c ∈ cs, isBlank c = false) : trim cs = cs :=
  trim_eq_self (fun c hc => h c (List.mem_of_mem_head? hc))
    fun c hc => h c (List.mem_of_mem_getLast? hc)

/-- A trimmed text begins and ends with no blank. -/
theorem ends_of_trim (cs : List Char) : (∀ c ∈ (trim cs).head?, isBlank c = false) ∧
    ∀ c ∈ (trim cs).getLast?, isBlank c = false := by
  constructor
  · intro c hc
    have hpre : trim cs <+: cs.dropWhile isBlank := List.rdropWhile_prefix _ _
    obtain ⟨rest, hrest⟩ := hpre
    have hhead := List.head?_dropWhile_not isBlank cs
    rw [← hrest] at hhead
    cases htrim : trim cs with
    | nil =>
        rw [htrim] at hc
        cases hc
    | cons d ds =>
        rw [htrim] at hc hhead
        cases hc
        exact hhead
  · intro c hc
    have hne : trim cs ≠ [] := fun hnil => by
      rw [hnil] at hc
      cases hc
    have hlast := List.rdropWhile_last_not isBlank (cs.dropWhile isBlank) hne
    rw [List.getLast?_eq_some_getLast hne] at hc
    cases hc
    exact Bool.eq_false_iff.mpr hlast

/-- Blanks around a text that begins and ends with none are what is taken off. -/
theorem trim_append {before cs after : List Char} (hbefore : ∀ c ∈ before, isBlank c = true)
    (hafter : ∀ c ∈ after, isBlank c = true)
    (h : (∀ c ∈ cs.head?, isBlank c = false) ∧ ∀ c ∈ cs.getLast?, isBlank c = false) :
    trim (before ++ cs ++ after) = cs := by
  have hdrop : (cs ++ after).dropWhile isBlank = cs ++ after ∨ cs = [] := by
    cases cs with
    | nil => exact Or.inr rfl
    | cons c cs =>
        have hc : isBlank c = false := h.1 c rfl
        exact Or.inl (List.dropWhile_cons_of_neg (by simp [hc]))
  rw [trim_eq, List.append_assoc, List.dropWhile_append_of_pos hbefore]
  obtain hdrop | rfl := hdrop
  · rw [hdrop, ← List.reverse_reverse (cs ++ after), List.rdropWhile_reverse, List.reverse_append,
      List.dropWhile_append_of_pos fun c hc => hafter c (List.mem_reverse.mp hc),
      ← List.rdropWhile_reverse, List.reverse_reverse, List.rdropWhile_eq_self_iff]
    intro hne
    have hlast := h.2 (cs.getLast hne) (List.getLast_mem_getLast? hne)
    simp [hlast]
  · rw [List.nil_append, List.rdropWhile_eq_nil_iff]
    exact fun c hc => hafter c ((List.dropWhile_sublist _).subset hc)

theorem trim_trim (cs : List Char) : trim (trim cs) = trim cs :=
  trim_eq_self (ends_of_trim cs).1 (ends_of_trim cs).2

theorem trimmed_trimmed (s : String) : trimmed (trimmed s) = trimmed s := by
  rw [← String.toList_inj, toList_trimmed, toList_trimmed, trim_trim]

/-- Nothing is left of a text exactly if it is all blank. -/
theorem trimmed_eq_empty_iff {s : String} : trimmed s = "" ↔ isAllBlank s = true := by
  rw [← String.toList_inj, toList_trimmed, isAllBlank, List.all_eq_true]
  constructor
  · intro h
    obtain ⟨before, after, hsplit, hbefore, hafter⟩ := exists_trim s.toList
    rw [h] at hsplit
    intro c hc
    rw [hsplit, String.toList_empty, List.append_nil] at hc
    exact (List.mem_append.mp hc).elim (hbefore c) (hafter c)
  · intro h
    rw [trim_eq, List.dropWhile_eq_nil_iff.mpr h]
    rfl

end Rulebook.Text
