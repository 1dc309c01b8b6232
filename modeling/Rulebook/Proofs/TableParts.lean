import Mathlib.Data.List.Induction
import Mathlib.Data.List.Nodup
import Rulebook.Table

/-!
# Parts and changes of tables

The part of a table at some keys (`Table.restrict`), a table with the value at one key set
or taken away (`Table.update`) or set if there is one (`Table.insert?`), the keys of a table,
and the table of a list of entries.  Each is known by its look-ups, and that is all that is
used of it.

Where every value knows its own key, the values of a part are found by a filter
(`Table.values_restrict`).
-/

namespace Rulebook

namespace Table

variable {α : Type}

/-- The entries of a table at some keys. -/
def restrict (t : Table α) (keys : List String) : Table α :=
  ofList (keys.filterMap fun key => (t.get? key).map fun value => (key, value))

theorem get?_foldl_insert (t u : Table α) (keys : List String) (key : String) :
    ((keys.filterMap fun k => (t.get? k).map fun value => (k, value)).foldl
        (fun u e => u.insert e.1 e.2) u).get? key =
      if key ∈ keys then (t.get? key).or (u.get? key) else u.get? key := by
  induction keys generalizing u with
  | nil => rfl
  | cons k keys ih =>
      cases hk : t.get? k with
      | none =>
          rw [List.filterMap_cons, hk, Option.map_none, ih]
          by_cases heq : key = k
          · subst heq
            simp [hk]
          · simp [heq]
      | some v =>
          rw [List.filterMap_cons, hk, Option.map_some, List.foldl_cons, ih, get?_insert]
          by_cases heq : key = k
          · subst heq
            simp [hk]
          · simp [heq]

theorem get?_restrict (t : Table α) (keys : List String) (key : String) :
    (t.restrict keys).get? key = if key ∈ keys then t.get? key else none := by
  rw [restrict, ofList, get?_foldl_insert]
  simp

/-- A part has the entries of its keys, in the same order. -/
theorem entries_restrict (t : Table α) (keys : List String) :
    (t.restrict keys).entries = t.entries.filter fun e => e.1 ∈ keys := by
  have hsorted : Entries.Sorted (t.entries.filter fun e => e.1 ∈ keys) :=
    List.Pairwise.filter _ t.sorted
  suffices heq : t.restrict keys = ⟨_, hsorted⟩ by rw [heq]
  refine ext_get? fun key => Option.ext fun v => ?_
  calc (t.restrict keys).get? key = some v
    _ ↔ (key, v) ∈ t.entries ∧ key ∈ keys := by
        rw [get?_restrict, mem_entries_iff]
        simp [and_comm]
    _ ↔ (key, v) ∈ t.entries.filter fun e => e.1 ∈ keys := by simp
    _ ↔ _ := mem_entries_iff ⟨_, hsorted⟩ key v

theorem mem_values {t : Table α} {v : α} : v ∈ t.values ↔ ∃ key, t.get? key = some v := by
  simp only [values, List.mem_map, Prod.exists, exists_eq_right, mem_entries_iff]

/-! ## Values that know their keys -/

section Keyed

variable {t : Table α} {keyOf : α → String}

/-- The values ascend if each stands at its own key. -/
theorem pairwise_values (h : ∀ key v, t.get? key = some v → keyOf v = key) :
    t.values.Pairwise fun v w => keyOf v < keyOf w := by
  have hkey : ∀ e ∈ t.entries, keyOf e.2 = e.1 := fun e he =>
    h e.1 e.2 ((mem_entries_iff t e.1 e.2).mp he)
  refine List.pairwise_map.mpr (t.sorted.imp_of_mem fun hv hw hlt => ?_)
  rwa [hkey _ hv, hkey _ hw]

/-- A part has the values whose keys are asked for, if each stands at its own key. -/
theorem values_restrict (h : ∀ key v, t.get? key = some v → keyOf v = key) (keys : List String) :
    (t.restrict keys).values = t.values.filter fun v => keyOf v ∈ keys := by
  have hkey : ∀ e ∈ t.entries, keyOf e.2 = e.1 := fun e he =>
    h e.1 e.2 ((mem_entries_iff t e.1 e.2).mp he)
  rw [values, values, entries_restrict, List.filter_map]
  refine congrArg (List.map _) (List.filter_congr fun e he => ?_)
  rw [Function.comp_apply, hkey e he]

end Keyed

/-! ## Changes -/

/-- The table with a value at a key, or with none there. -/
def update (t : Table α) (key : String) : Option α → Table α
  | none => t.erase key
  | some value => t.insert key value

theorem get?_update (t : Table α) (key key' : String) (value : Option α) :
    (t.update key value).get? key' = if key' = key then value else t.get? key' := by
  cases value with
  | none => exact get?_erase t key key'
  | some value => exact get?_insert t key key' value

/-- The table with a value at a key, if there is a value. -/
def insert? (t : Table α) (key : String) : Option α → Table α
  | none => t
  | some value => t.insert key value

theorem get?_insert? (t : Table α) (key key' : String) (value : Option α) :
    (t.insert? key value).get? key' =
      if key' = key then value.or (t.get? key) else t.get? key' := by
  cases value with
  | none =>
      by_cases heq : key' = key
      · simp [insert?, heq]
      · simp [insert?, heq]
  | some value => simp [insert?, get?_insert]

/-- The keys in ascending order. -/
def keys (t : Table α) : List String := t.entries.map (·.1)

theorem mem_keys {t : Table α} {key : String} : key ∈ t.keys ↔ ∃ v, t.get? key = some v := by
  simp only [keys, List.mem_map, Prod.exists, exists_and_right, exists_eq_right, mem_entries_iff]

theorem length_keys (t : Table α) : t.keys.length = t.size := List.length_map _

theorem nodup_keys (t : Table α) : t.keys.Nodup := by
  refine List.pairwise_map.mpr (t.sorted.imp ?_)
  intro a b hlt heq
  rw [heq] at hlt
  exact String.lt_irrefl _ hlt

/-! ## Tables of lists -/

/-- The last entry of a list counts. -/
theorem get?_ofList_concat (entries : List (String × α)) (e : String × α) (key : String) :
    (ofList (entries ++ [e])).get? key =
      if key = e.1 then some e.2 else (ofList entries).get? key := by
  rw [ofList, List.foldl_append]
  exact get?_insert _ _ _ _

/-- An entry counts if no later one has its key. -/
theorem get?_ofList_append_cons {before after : List (String × α)} {key : String} {value : α}
    (h : ∀ e ∈ after, e.1 ≠ key) :
    (ofList (before ++ (key, value) :: after)).get? key = some value := by
  induction after using List.reverseRecOn with
  | nil => rw [get?_ofList_concat, if_pos rfl]
  | append_singleton after e ih =>
    have hne : key ≠ e.1 := (h e (List.mem_append_right _ (List.mem_singleton_self e))).symm
    rw [← List.cons_append, ← List.append_assoc, get?_ofList_concat, if_neg hne]
    exact ih fun e' he' => h e' (List.mem_append_left _ he')

theorem mem_of_mem_ofList {entries : List (String × α)} {e : String × α}
    (h : e ∈ (ofList entries).entries) : e ∈ entries := by
  induction entries using List.reverseRecOn with
  | nil => cases h
  | append_singleton entries e' ih =>
    rw [ofList, List.foldl_append] at h
    rcases Entries.mem_put h with rfl | h
    · exact List.mem_append_right _ (List.mem_singleton_self _)
    · exact List.mem_append_left _ (ih h)

theorem get?_ofList_eq_some_iff {entries : List (String × α)} (h : (entries.map (·.1)).Nodup)
    {key : String} {value : α} :
    (ofList entries).get? key = some value ↔ (key, value) ∈ entries := by
  constructor
  · exact fun hget => mem_of_mem_ofList ((mem_entries_iff _ _ _).mpr hget)
  · intro hmem
    obtain ⟨before, after, rfl⟩ := List.append_of_mem hmem
    rw [List.map_append, List.map_cons, List.nodup_append, List.nodup_cons] at h
    exact get?_ofList_append_cons fun e he heq => h.2.1.1 (List.mem_map.mpr ⟨e, he, heq⟩)

/-- The entries of a table make the table in any order. -/
theorem ofList_of_perm {t : Table α} {entries : List (String × α)} (h : entries.Perm t.entries) :
    ofList entries = t := by
  have hnodup : (entries.map (·.1)).Nodup := (h.map _).nodup_iff.mpr t.nodup_keys
  refine ext_get? fun key => Option.ext fun value => ?_
  rw [get?_ofList_eq_some_iff hnodup, h.mem_iff, mem_entries_iff]

end Table

end Rulebook
