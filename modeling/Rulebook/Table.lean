/-!
# Tables

A *table* maps texts to values and lists its entries in ascending order of their
keys, the order of their bytes.  Records, the rules in memory and the entries of
a folder are tables.

The order is part of the type, so two tables that answer every look-up alike are
equal (`Table.ext_get?`), and a listing never depends on the order of the writes.
The functions on bare entry lists come first; they keep the order
(`sorted_put`, `sorted_erase`) and say what a later look-up finds
(`lookup_put`, `lookup_erase`).
-/

namespace Rulebook

variable {α : Type}

namespace Entries

/-! ## Entry lists -/

/-- Entries in strictly ascending order of their keys. -/
def Sorted (entries : List (String × α)) : Prop := entries.Pairwise fun a b => a.1 < b.1

instance (entries : List (String × α)) : Decidable (Sorted entries) :=
  inferInstanceAs (Decidable (entries.Pairwise _))

/-- The value at a key. -/
def lookup (key : String) : List (String × α) → Option α
  | [] => none
  | (k, v) :: rest => if key = k then some v else lookup key rest

/-- The entries with one more, which replaces the entry of the same key. -/
def put (key : String) (value : α) : List (String × α) → List (String × α)
  | [] => [(key, value)]
  | (k, v) :: rest =>
      if key < k then (key, value) :: (k, v) :: rest
      else if key = k then (key, value) :: rest
      else (k, v) :: put key value rest

/-- The entries without those of a key. -/
def erase (key : String) (entries : List (String × α)) : List (String × α) :=
  entries.filter fun e => e.1 != key

theorem key_ne_of_sorted {k : String} {v : α} {rest : List (String × α)}
    (h : Sorted ((k, v) :: rest)) : ∀ e ∈ rest, e.1 ≠ k := by
  intro e he heq
  have := (List.pairwise_cons.1 h).1 e he
  rw [heq] at this
  exact String.lt_irrefl _ this

theorem lookup_put (key key' : String) (value : α) (entries : List (String × α)) :
    lookup key' (put key value entries) =
      if key' = key then some value else lookup key' entries := by
  induction entries with
  | nil => simp [put, lookup]
  | cons e rest ih =>
    obtain ⟨k, v⟩ := e
    simp only [put]
    split
    · simp [lookup]
    · split
      · next heq => subst heq; by_cases h : key' = key <;> simp [lookup, h]
      · next hne =>
        by_cases h : key' = k
        · subst h; simp [lookup, Ne.symm hne]
        · simp [lookup, h, ih]

theorem mem_put {key : String} {value : α} {entries : List (String × α)} {e : String × α}
    (h : e ∈ put key value entries) : e = (key, value) ∨ e ∈ entries := by
  induction entries with
  | nil => simpa [put] using h
  | cons x rest ih =>
    obtain ⟨k, v⟩ := x
    simp only [put] at h
    split at h
    · simpa using h
    · split at h
      · rcases List.mem_cons.1 h with h | h
        · exact .inl h
        · exact .inr (by simp [h])
      · rcases List.mem_cons.1 h with h | h
        · exact .inr (by simp [h])
        · exact (ih h).imp id fun h => by simp [h]

theorem sorted_put (key : String) (value : α) {entries : List (String × α)}
    (h : Sorted entries) : Sorted (put key value entries) := by
  induction entries with
  | nil => simp [put, Sorted]
  | cons e rest ih =>
    obtain ⟨k, v⟩ := e
    have hk := (List.pairwise_cons.1 h).1
    have hrest : Sorted rest := (List.pairwise_cons.1 h).2
    simp only [put]
    split
    · next hlt =>
      refine List.pairwise_cons.2 ⟨fun e he => ?_, h⟩
      rcases List.mem_cons.1 he with rfl | he
      · exact hlt
      · exact String.lt_trans hlt (hk e he)
    · split
      · next heq => subst heq; exact List.pairwise_cons.2 ⟨hk, hrest⟩
      · next hnlt hne =>
        refine List.pairwise_cons.2 ⟨fun e he => ?_, ih hrest⟩
        rcases mem_put he with rfl | he
        · rcases String.le_total k key with hle | hle
          · exact Decidable.byContradiction fun hn =>
              hne (String.le_antisymm (String.not_lt.1 hn) hle)
          · exact absurd (String.le_antisymm hle (String.not_lt.1 hnlt)) hne
        · exact hk e he

theorem sorted_erase (key : String) {entries : List (String × α)} (h : Sorted entries) :
    Sorted (erase key entries) :=
  List.Pairwise.filter _ h

theorem lookup_erase (key key' : String) (entries : List (String × α)) :
    lookup key' (erase key entries) = if key' = key then none else lookup key' entries := by
  induction entries with
  | nil => simp [erase, lookup]
  | cons e rest ih =>
    obtain ⟨k, v⟩ := e
    simp only [erase] at ih
    by_cases hk : k = key
    · subst hk
      simp only [erase, List.filter_cons, bne_self_eq_false, Bool.false_eq_true, ite_false, ih]
      by_cases h : key' = k <;> simp [lookup, h]
    · simp only [erase, List.filter_cons, bne_iff_ne, ne_eq, hk, not_false_eq_true, ite_true]
      by_cases h : key' = k
      · subst h; simp [lookup, hk]
      · simp [lookup, h, ih]

theorem mem_of_lookup {key : String} {value : α} {entries : List (String × α)}
    (h : lookup key entries = some value) : (key, value) ∈ entries := by
  induction entries with
  | nil => simp [lookup] at h
  | cons e rest ih =>
    obtain ⟨k, v⟩ := e
    simp only [lookup] at h
    split at h
    · next heq => simp_all
    · simp [ih h]

theorem lookup_of_mem {key : String} {value : α} {entries : List (String × α)}
    (hs : Sorted entries) (h : (key, value) ∈ entries) : lookup key entries = some value := by
  induction entries with
  | nil => simp at h
  | cons e rest ih =>
    obtain ⟨k, v⟩ := e
    rcases List.mem_cons.1 h with heq | h
    · obtain ⟨rfl, rfl⟩ := Prod.mk.inj heq
      simp [lookup]
    · have := key_ne_of_sorted hs _ h
      simp only [lookup]
      rw [if_neg this]
      exact ih (List.pairwise_cons.1 hs).2 h

end Entries

/-! ## Tables -/

/-- A map from texts to values whose entries are listed in order of their keys. -/
structure Table (α : Type) where
  /-- The entries. -/
  entries : List (String × α)
  /-- The keys ascend strictly. -/
  sorted : Entries.Sorted entries

namespace Table

/-- The table without entries. -/
def empty : Table α := ⟨[], List.Pairwise.nil⟩

instance : Inhabited (Table α) := ⟨empty⟩

/-- The value at a key. -/
def get? (t : Table α) (key : String) : Option α := Entries.lookup key t.entries

/-- The table with one more entry, which replaces the entry of the same key. -/
def insert (t : Table α) (key : String) (value : α) : Table α :=
  ⟨Entries.put key value t.entries, Entries.sorted_put key value t.sorted⟩

/-- The table without the entry of a key. -/
def erase (t : Table α) (key : String) : Table α :=
  ⟨Entries.erase key t.entries, Entries.sorted_erase key t.sorted⟩

/-- The values in order of their keys. -/
def values (t : Table α) : List α := t.entries.map (·.2)

/-- The number of entries. -/
def size (t : Table α) : Nat := t.entries.length

/-- The table of a list of entries, of which the last one of a key counts. -/
def ofList (entries : List (String × α)) : Table α :=
  entries.foldl (fun t e => t.insert e.1 e.2) empty

@[simp] theorem get?_empty (key : String) : (empty : Table α).get? key = none := rfl

theorem get?_insert (t : Table α) (key key' : String) (value : α) :
    (t.insert key value).get? key' = if key' = key then some value else t.get? key' :=
  Entries.lookup_put key key' value t.entries

theorem get?_erase (t : Table α) (key key' : String) :
    (t.erase key).get? key' = if key' = key then none else t.get? key' :=
  Entries.lookup_erase key key' t.entries

theorem mem_entries_iff (t : Table α) (key : String) (value : α) :
    (key, value) ∈ t.entries ↔ t.get? key = some value :=
  ⟨Entries.lookup_of_mem t.sorted, Entries.mem_of_lookup⟩

/-- Tables that answer every look-up alike are equal. -/
theorem ext_get? {t u : Table α} (h : ∀ key, t.get? key = u.get? key) : t = u := by
  obtain ⟨ts, hts⟩ := t
  obtain ⟨us, hus⟩ := u
  suffices ts = us by subst this; rfl
  have mem : ∀ e, e ∈ ts ↔ e ∈ us := fun e => by
    rw [← Prod.eta e]
    exact (mem_entries_iff ⟨ts, hts⟩ _ _).trans
      ((iff_of_eq (by rw [h])).trans (mem_entries_iff ⟨us, hus⟩ _ _).symm)
  clear h
  induction ts generalizing us with
  | nil =>
    cases us with
    | nil => rfl
    | cons e us => exact absurd ((mem e).2 (by simp)) (by simp)
  | cons e ts ih =>
    cases us with
    | nil => exact absurd ((mem e).1 (by simp)) (by simp)
    | cons f us =>
      have ht := List.pairwise_cons.1 hts
      have hu := List.pairwise_cons.1 hus
      have hef : e = f := by
        rcases List.mem_cons.1 ((mem e).1 (by simp)) with he | he
        · exact he
        · rcases List.mem_cons.1 ((mem f).2 (by simp)) with hf | hf
          · exact hf.symm
          · exact absurd (String.lt_trans (hu.1 e he) (ht.1 f hf)) (String.lt_irrefl _)
      subst hef
      have : ts = us := ih ht.2 us hu.2 fun x => by
        have hx := mem x
        simp only [List.mem_cons] at hx
        constructor
        · intro hm
          rcases hx.1 (.inr hm) with rfl | h
          · exact absurd (ht.1 _ hm) (String.lt_irrefl _)
          · exact h
        · intro hm
          rcases hx.2 (.inr hm) with rfl | h
          · exact absurd (hu.1 _ hm) (String.lt_irrefl _)
          · exact h
      rw [this]

example : (ofList [("b", 1), ("a", 2), ("b", 3)]).entries = [("a", 2), ("b", 3)] := by decide

end Table

end Rulebook
