import Mathlib.Data.List.Basic
import Mathlib.Data.List.Perm.Basic
import Rulebook.Proofs.SettingTree
import Rulebook.Settings.Surroundings

/-!
# The order of settings

The entries of a table are put over others one after another, in an order that is up to the
surroundings.  Entries under names that differ in more than case are put in different places, so it
does not matter which of them comes first (`Setting.putOver_comm`).

A plain file has no two names that differ only in case and no paths, and the same is true of the
tables in it.  So its tree is what is written in it, whatever the order of its entries is
(`Settings.Surroundings.treeOf_arrangedLayer`).
-/

namespace Rulebook

open Rulebook.Text (lowered)

namespace Entries

variable {α : Type}

theorem put_comm {key key' : String} (h : key ≠ key') (value value' : α) :
    ∀ entries : List (String × α),
      put key value (put key' value' entries) = put key' value' (put key value entries)
  | [] => by grind [put]
  | (k, v) :: rest => by
      have ih := put_comm h value value' rest
      grind [put]

end Entries

namespace Setting

/-! ## One after the other -/

section

variable {es es' : List (String × Setting)} {name name' : String}

/-- A value is put over the one at its name, and the others do not count. -/
theorem exists_putOver_eq (name : String) (v : Setting) :
    ∃ new : Option Setting → Setting, ∀ target,
      putOver target name v =
        Entries.put (lowered name) (new (Entries.lookup (lowered name) target)) target := by
  cases v with
  | table es =>
    refine ⟨fun old => if es.isEmpty then old.getD (.table []) else
      .table (putAllOver (old.getD (.table [])).entries es), fun target => ?_⟩
    rw [putOver]
  | _ =>
    refine ⟨fun _ => _, fun target => putOver_of_ne_table ?_ target name⟩
    exact fun es heq => by cases heq

/-- Values under names that differ in more than case are put in either order. -/
theorem putOver_comm (h : lowered name ≠ lowered name') (v v' : Setting)
    (target : List (String × Setting)) :
    putOver (putOver target name v) name' v' = putOver (putOver target name' v') name v := by
  obtain ⟨new, hnew⟩ := exists_putOver_eq name v
  obtain ⟨new', hnew'⟩ := exists_putOver_eq name' v'
  simp only [hnew, hnew', Entries.lookup_put, if_neg h, if_neg h.symm]
  exact Entries.put_comm h.symm _ _ target

theorem putAllOver_eq_foldl (target es : List (String × Setting)) :
    putAllOver target es = es.foldl (fun target e => putOver target e.1 e.2) target := by
  induction es generalizing target with
  | nil => rw [putAllOver, List.foldl_nil]
  | cons e rest ih => rw [putAllOver, ih, List.foldl_cons]

/-- Entries whose names differ in more than case are put over others in any order. -/
theorem putAllOver_of_perm (hperm : es'.Perm es) (hnodup : ((es.map (·.1)).map lowered).Nodup)
    (target : List (String × Setting)) : putAllOver target es' = putAllOver target es := by
  rw [putAllOver_eq_foldl, putAllOver_eq_foldl]
  refine hperm.foldl_eq' (fun e he e' he' target => ?_) target
  by_cases hname : lowered e.1 = lowered e'.1
  · rw [List.map_map] at hnodup
    rw [List.inj_on_of_nodup_map hnodup (hperm.mem_iff.mp he) (hperm.mem_iff.mp he') hname]
  · exact putOver_comm hname e.2 e'.2 target

end

/-! ## Plain entries -/

section

variable {es es' : List (String × Setting)} {e : String × Setting}

theorem map_lowered_of_arePlain (h : arePlain es = true) :
    (es.map (·.1)).map lowered = es.map (·.1) := by
  induction es with
  | nil => rfl
  | cons e rest ih =>
    obtain ⟨hfirst, hrest⟩ := Bool.and_eq_true_iff.mp h
    rw [List.map_cons, List.map_cons, ih hrest, eq_of_beq (Bool.and_eq_true_iff.mp hfirst).1]

/-- A plain entry of a layer is put at its name, and its value is of no account for that. -/
theorem exists_assign_eq (h : leadsTo (pathOf e.1) [e.1] = true) :
    ∃ name, lowered name = e.1 ∧ ∀ target v, assign target (e.1, v) = putOver target name v := by
  obtain ⟨name, hpath, hname⟩ := exists_eq_of_leadsTo_singleton h
  refine ⟨name, hname, fun target v => ?_⟩
  rw [assign, hpath, assignAt]
  rfl

/-- Plain entries make the same tree in any order. -/
theorem treeOf_of_perm (hperm : es'.Perm es) (hnodup : (es.map (·.1)).Nodup)
    (h : ∀ e ∈ es, leadsTo (pathOf e.1) [e.1] = true) : treeOf es' = treeOf es := by
  refine congrArg Setting.table (hperm.foldl_eq' (fun e he e' he' target => ?_) [])
  rw [hperm.mem_iff] at he he'
  by_cases heq : e.1 = e'.1
  · rw [List.inj_on_of_nodup_map hnodup he he' heq]
  · obtain ⟨name, hname, hassign⟩ := exists_assign_eq (h e he)
    obtain ⟨name', hname', hassign'⟩ := exists_assign_eq (h e' he')
    have hne : lowered name ≠ lowered name' := by rwa [hname, hname']
    rw [← Prod.eta e, ← Prod.eta e', hassign, hassign', hassign', hassign]
    exact putOver_comm hne e.2 e'.2 target

end

end Setting

namespace Settings.Surroundings

open Setting

variable (w : Surroundings) {es layer : List (String × Setting)}

theorem map_arrangedEntries (path : List String) (es : List (String × Setting)) :
    (w.arrangedEntries path es).map (·.1) = es.map (·.1) := by
  induction es with
  | nil => rfl
  | cons e rest ih => rw [arrangedEntries, List.map_cons, List.map_cons, ih]

theorem isEmpty_arrange (order : ReadOrder (String × Setting)) (path : List String) :
    (order.arrange (w.arrangedEntries path es)).isEmpty = es.isEmpty := by
  rw [(order.perm_arrange _).isEmpty_eq]
  cases es <;> rfl

/-! ## Any order of a file -/

/-- A plain value is put over others in any order of its tables, if the entries in it are so. -/
theorem putOver_arranged {v : Setting} (hv : isPlain v = true)
    (ih : ∀ es, v = .table es → arePlain es = true → ∀ path target,
      putAllOver target (w.arrangedEntries path es) = putAllOver target es)
    (path : List String) (target : List (String × Setting)) (name : String) :
    putOver target name (w.arranged path v) = putOver target name v := by
  cases v with
  | table es =>
    obtain ⟨hsorted, hplain⟩ := Bool.and_eq_true_iff.mp hv
    have hnodup : (((w.arrangedEntries path es).map (·.1)).map lowered).Nodup := by
      rw [map_arrangedEntries, map_lowered_of_arePlain hplain]
      exact Table.nodup_keys ⟨es, of_decide_eq_true hsorted⟩
    rw [arranged, putOver, putOver, isEmpty_arrange,
      putAllOver_of_perm (ReadOrder.perm_arrange _ _) hnodup, ih es rfl hplain]
  | _ =>
    rw [arranged]
    exact fun es heq => by cases heq

/-- Plain entries are put over others in any order of the tables in them. -/
theorem putAllOver_arrangedEntries : ∀ {es : List (String × Setting)}, arePlain es = true →
    ∀ path target, putAllOver target (w.arrangedEntries path es) = putAllOver target es
  | [], _, _, _ => by rw [arrangedEntries]
  | (name, v) :: rest, h, path, target => by
    obtain ⟨hfirst, hrest⟩ := Bool.and_eq_true_iff.mp h
    have hv := (Bool.and_eq_true_iff.mp hfirst).2
    rw [arrangedEntries, putAllOver, putAllOver,
      putOver_arranged w hv fun _ _ => putAllOver_arrangedEntries,
      putAllOver_arrangedEntries hrest]

theorem treeOf_arrangedEntries (path : List String)
    (h : ∀ e ∈ layer, (leadsTo (pathOf e.1) [e.1] && isPlain e.2) = true) :
    treeOf (w.arrangedEntries path layer) = treeOf layer := by
  suffices hfold : ∀ target, (w.arrangedEntries path layer).foldl assign target =
      layer.foldl assign target from congrArg Setting.table (hfold [])
  induction layer with
  | nil => exact fun target => by rw [arrangedEntries]
  | cons e rest ih =>
    intro target
    obtain ⟨hpath, hv⟩ := Bool.and_eq_true_iff.mp (h e (List.mem_cons_self ..))
    obtain ⟨name, -, hassign⟩ := exists_assign_eq hpath
    rw [arrangedEntries, List.foldl_cons, List.foldl_cons, ← Prod.eta e, hassign, hassign,
      w.putOver_arranged hv fun _ _ => w.putAllOver_arrangedEntries,
      ih fun e' he' => h e' (List.mem_cons_of_mem _ he')]

/-- The tree of a plain file has its entries as they are, in whatever order they are read. -/
theorem treeOf_arrangedLayer (h : isPlainLayer layer = true) :
    treeOf (w.arrangedLayer layer) = .table layer := by
  obtain ⟨hsorted, hall⟩ := Bool.and_eq_true_iff.mp h
  rw [List.all_eq_true] at hall
  have hnodup : ((w.arrangedEntries [] layer).map (·.1)).Nodup := by
    rw [map_arrangedEntries]
    exact Table.nodup_keys ⟨layer, of_decide_eq_true hsorted⟩
  have hpath : ∀ e ∈ w.arrangedEntries [] layer, leadsTo (pathOf e.1) [e.1] = true := by
    intro e he
    have hname : e.1 ∈ layer.map (·.1) := by
      rw [← w.map_arrangedEntries []]
      exact List.mem_map_of_mem he
    obtain ⟨e', he', heq⟩ := List.mem_map.mp hname
    exact heq ▸ (Bool.and_eq_true_iff.mp (hall e' he')).1
  calc treeOf (w.arrangedLayer layer)
    _ = treeOf (w.arrangedEntries [] layer) :=
        treeOf_of_perm (ReadOrder.perm_arrange _ _) hnodup hpath
    _ = treeOf layer := w.treeOf_arrangedEntries [] hall
    _ = .table layer := treeOf_of_isPlainLayer h

end Settings.Surroundings

end Rulebook
