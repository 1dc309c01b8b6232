import Rulebook.Proofs.TableParts
import Rulebook.Settings.Layer

/-!
# Trees of settings

Entries that are put over each other make a tree (`Setting.treeOf`).  A *key* is the list of names
that lead to a value in a tree (`Setting.at?`).

An entry with the path of a key sets the value at the key (`at?_assignAt_of_leadsTo`).  An entry
whose path parts from the key leaves the value alone (`at?_assignAt_of_isApart`).  A path parts from
a key where it goes to another name.  One that goes to an item does not, since it makes a list of
what is there, nor does one that ends before the key or goes beyond it.

Whatever an entry does to the value at a key, it hangs on the value that was there only
(`at?_assignAt_congr`).  So the entries that part from a key may be left out wherever they stand
(`at?_treeOf_filter`).

If the names are in lower case and none of them is a path, the tree has the entries that it is made
of (`treeOf_of_isPlainLayer`).
-/

namespace Rulebook

/-! ## Entries at the end -/

namespace Entries

variable {α : Type} {key : String} {value : α} {entries : List (String × α)}

theorem lookup_of_forall_lt (h : ∀ e ∈ entries, e.1 < key) : lookup key entries = none := by
  induction entries with
  | nil => rfl
  | cons e rest ih =>
    have hne : key ≠ e.1 := fun heq => String.lt_irrefl key (heq ▸ h e (List.mem_cons_self ..))
    rw [lookup, if_neg hne]
    exact ih fun e' he' => h e' (List.mem_cons_of_mem _ he')

theorem put_of_forall_lt (h : ∀ e ∈ entries, e.1 < key) :
    put key value entries = entries ++ [(key, value)] := by
  induction entries with
  | nil => rfl
  | cons e rest ih =>
    have hlt := h e (List.mem_cons_self ..)
    have hne : key ≠ e.1 := fun heq => String.lt_irrefl key (heq ▸ hlt)
    rw [put, if_neg (String.lt_asymm hlt), if_neg hne,
      ih fun e' he' => h e' (List.mem_cons_of_mem _ he'), List.cons_append]

end Entries

namespace Setting

open Rulebook.Text (lowered)

/-! ## Keys and paths -/

/-- The value at a key. -/
def at? : List String → Setting → Option Setting
  | [], v => some v
  | name :: key, v => (Entries.lookup name v.entries).bind (at? key)

/-- Whether a path is a key, up to the case of its names. -/
def leadsTo : List Step → List String → Bool
  | [], [] => true
  | .name name :: path, k :: key => lowered name == k && leadsTo path key
  | _, _ => false

/-- Whether a path goes to another name than a key. -/
def isApart : List Step → List String → Bool
  | .name name :: path, k :: key => lowered name != k || isApart path key
  | _, _ => false

theorem isApart_nil (path : List Step) : isApart path [] = false := by
  cases path with
  | nil => rfl
  | cons step path => cases step <;> rfl

theorem isApart_nil_left (key : List String) : isApart [] key = false := by
  cases key <;> rfl

theorem isApart_of_leadsTo {path : List Step} {key : List String} (h : leadsTo path key = true) :
    isApart path key = false := by
  induction path generalizing key with
  | nil => rfl
  | cons step path ih =>
    cases step with
    | index i => rfl
    | name name =>
      cases key with
      | nil => rfl
      | cons k key =>
        obtain ⟨hname, hpath⟩ := Bool.and_eq_true_iff.mp h
        rw [isApart, ih hpath, Bool.or_false, bne, hname, Bool.not_true]

theorem exists_eq_of_leadsTo_singleton {path : List Step} {k : String}
    (h : leadsTo path [k] = true) : ∃ name, path = [.name name] ∧ lowered name = k := by
  match path with
  | [] | .index _ :: _ => cases h
  | .name name :: [] =>
    rw [leadsTo, leadsTo, Bool.and_true] at h
    exact ⟨name, rfl, eq_of_beq h⟩
  | .name _ :: .name _ :: _ | .name _ :: .index _ :: _ =>
    exact absurd (Bool.and_eq_true_iff.mp h).2 Bool.false_ne_true

theorem at?_single (name : String) (v : Setting) :
    at? [name] v = Entries.lookup name v.entries := by
  rw [at?]
  cases Entries.lookup name v.entries <;> rfl

theorem at?_pair (name name' : String) (v : Setting) :
    at? [name, name'] v = (at? [name] v).bind fun w => Entries.lookup name' w.entries := by
  rw [at?_single, at?]
  exact congrArg _ (funext fun w => at?_single name' w)

theorem at?_of_entries_eq_nil {key : List String} {v : Setting} (hkey : key ≠ [])
    (hv : v.entries = []) : at? key v = none := by
  cases key with
  | nil => exact absurd rfl hkey
  | cons k key =>
    rw [at?, hv]
    rfl

/-! ## Values put over a value -/

section

variable {v old : Setting} {path : List Step} {key : List String}

theorem putOver_of_ne_table (hv : ∀ es, v ≠ .table es) (target : List (String × Setting))
    (name : String) : putOver target name v = Entries.put (lowered name) v target := by
  rw [putOver]
  exact hv

theorem lookup_putOver_of_ne {target : List (String × Setting)} {name k : String}
    (h : lowered name ≠ k) :
    Entries.lookup k (putOver target name v) = Entries.lookup k target := by
  cases v with
  | table es => rw [putOver, Entries.lookup_put, if_neg (Ne.symm h)]
  | _ =>
    rw [putOver_of_ne_table, Entries.lookup_put, if_neg (Ne.symm h)]
    exact fun es => nofun

/-- A value put at another path leaves the value at a key alone. -/
theorem at?_assignAt_of_isApart (h : isApart path key = true) :
    at? key (assignAt v path old) = at? key old := by
  fun_induction assignAt v path old generalizing key
  case case1 => cases h
  case case2 name old =>
    cases key with
    | nil => cases h
    | cons k key =>
      have hne : lowered name ≠ k := by
        rwa [isApart, isApart_nil_left, Bool.or_false, bne_iff_ne] at h
      rw [at?, at?, entries, lookup_putOver_of_ne hne]
  case case3 name path old hpath name' inner ih =>
    cases key with
    | nil => cases h
    | cons k key =>
      rw [isApart, Bool.or_eq_true, bne_iff_ne] at h
      rw [at?, at?, entries, Entries.lookup_put]
      split
      next heq =>
        -- the same name: what is at the rest of the key was there before, if anything was
        have hrest : isApart path key = true := h.resolve_left fun hne => hne heq.symm
        rw [Option.bind_some, ih hrest, heq]
        cases hget : Entries.lookup name' old.entries with
        | some w => simp only [inner, hget, Option.getD_some, Option.bind_some]
        | none =>
          have hkey : key ≠ [] := fun hnil => by
            rw [hnil, isApart_nil] at hrest
            cases hrest
          simp only [inner, hget, Option.getD_none, Option.bind_none]
          exact at?_of_entries_eq_nil hkey rfl
      next => rfl
  case case4 => cases h

/-- A value put at the path of a key is the value at the key. -/
theorem at?_assignAt_of_leadsTo (hv : ∀ es, v ≠ .table es) (h : leadsTo path key = true) :
    at? key (assignAt v path old) = some v := by
  fun_induction assignAt v path old generalizing key
  case case1 =>
    cases key with
    | nil => rfl
    | cons k key => cases h
  case case2 name old =>
    cases key with
    | nil => cases h
    | cons k key =>
      obtain ⟨hname, hkey⟩ := Bool.and_eq_true_iff.mp h
      cases key with
      | cons k' key => cases hkey
      | nil =>
        rw [at?, entries, putOver_of_ne_table hv, Entries.lookup_put, if_pos (eq_of_beq hname).symm]
        rfl
  case case3 name path old hpath name' inner ih =>
    cases key with
    | nil => cases h
    | cons k key =>
      obtain ⟨hname, hkey⟩ := Bool.and_eq_true_iff.mp h
      rw [at?, entries, Entries.lookup_put, if_pos (eq_of_beq hname).symm, Option.bind_some,
        ih hkey]
  case case4 =>
    cases key with
    | nil => cases h
    | cons k key => cases h

end

/-! ## Values that agree at a key -/

section

variable {v old old' : Setting} {es es' : List (String × Setting)} {key : List String}

/-- Values that agree at a key agree on what is under its first name. -/
theorem at?_getD_congr {k : String} {d : Setting} (hd : d.entries = [])
    (h : at? (k :: key) old = at? (k :: key) old') :
    at? key ((Entries.lookup k old.entries).getD d) =
      at? key ((Entries.lookup k old'.entries).getD d) := by
  have hnone {w : Setting} (hw : none = at? key w) : at? key d = at? key w := by
    rw [← hw]
    refine at?_of_entries_eq_nil (fun hkey => ?_) hd
    rw [hkey] at hw
    cases hw
  rw [at?, at?] at h
  cases hold : Entries.lookup k old.entries with
  | none =>
    rw [hold] at h
    cases hold' : Entries.lookup k old'.entries with
    | none => rfl
    | some w' =>
      rw [hold'] at h
      exact hnone h
  | some w =>
    rw [hold] at h
    cases hold' : Entries.lookup k old'.entries with
    | none =>
      rw [hold'] at h
      exact (hnone h.symm).symm
    | some w' =>
      rw [hold'] at h
      exact h

theorem at?_put_congr {name : String} {w w' : Setting} (hkey : key ≠ [])
    (hw : ∀ rest, key = name :: rest → at? rest w = at? rest w')
    (h : at? key (.table es) = at? key (.table es')) :
    at? key (.table (Entries.put name w es)) = at? key (.table (Entries.put name w' es')) := by
  cases key with
  | nil => exact absurd rfl hkey
  | cons k key =>
    rw [at?, at?, entries, entries] at h ⊢
    rw [Entries.lookup_put, Entries.lookup_put]
    split
    next heq => exact hw key (by rw [heq])
    next => exact h

/-- The value at a key after a change there hangs on the value before it only, if this is so for
entries that are put over entries. -/
theorem at?_putOver_congr {name : String}
    (ih : ∀ incoming, v = .table incoming → ∀ {key es es'}, key ≠ [] →
      at? key (.table es) = at? key (.table es') →
      at? key (.table (putAllOver es incoming)) = at? key (.table (putAllOver es' incoming)))
    (hkey : key ≠ []) (h : at? key (.table es) = at? key (.table es')) :
    at? key (.table (putOver es name v)) = at? key (.table (putOver es' name v)) := by
  cases v with
  | table incoming =>
    rw [putOver, putOver]
    refine at?_put_congr hkey (fun rest hrest => ?_) h
    have hunder := at?_getD_congr (d := .table []) rfl (hrest ▸ h)
    rw [entries, entries] at hunder
    split
    next => exact hunder
    next =>
      by_cases hnil : rest = []
      · rw [hnil] at hunder ⊢
        rw [Option.some_inj.mp hunder]
      · refine ih incoming rfl hnil ?_
        cases rest with
        | nil => exact absurd rfl hnil
        | cons k rest => exact hunder
  | _ =>
    rw [putOver_of_ne_table, putOver_of_ne_table]
    · exact at?_put_congr hkey (fun _ _ => rfl) h
    · exact fun es => nofun
    · exact fun es => nofun

theorem at?_putAllOver_congr : ∀ {incoming es es' : List (String × Setting)} {key : List String},
    key ≠ [] → at? key (.table es) = at? key (.table es') →
    at? key (.table (putAllOver es incoming)) = at? key (.table (putAllOver es' incoming))
  | [], _, _, _, _, h => by rwa [putAllOver, putAllOver]
  | (name, v) :: rest, _, _, _, hkey, h => by
    rw [putAllOver, putAllOver]
    exact at?_putAllOver_congr hkey
      (at?_putOver_congr (fun _ _ => at?_putAllOver_congr) hkey h)

/-- The value at a key after a value is put somewhere hangs on the value before it only. -/
theorem at?_assignAt_congr {path : List Step} (h : at? key old = at? key old') :
    at? key (assignAt v path old) = at? key (assignAt v path old') := by
  induction path generalizing key old old' with
  | nil => rfl
  | cons step path ih =>
    cases key with
    | nil => rw [Option.some_inj.mp h]
    | cons k key =>
      cases step with
      | index i => rfl
      | name name =>
        have hkey := List.cons_ne_nil k key
        cases path with
        | nil =>
          rw [assignAt, assignAt]
          exact at?_putOver_congr (fun _ _ => at?_putAllOver_congr) hkey h
        | cons step' path =>
          rw [assignAt, assignAt]
          · refine at?_put_congr hkey (fun rest hrest => ih ?_) h
            obtain ⟨rfl, rfl⟩ := List.cons.inj hrest
            exact at?_getD_congr rfl h
          · exact nofun
          · exact nofun

end

/-! ## Trees of entries -/

/-- The tree that entries make, each put over those before it. -/
def treeOf (entries : List (String × Setting)) : Setting := .table (entries.foldl assign [])

section

variable {before after : List (String × Setting)} {key : List String}

theorem at?_assign (hkey : key ≠ []) (target : List (String × Setting)) (e : String × Setting) :
    at? key (.table (assign target e)) = at? key (assignAt e.2 (pathOf e.1) (.table target)) := by
  cases key with
  | nil => exact absurd rfl hkey
  | cons k key => rfl

/-- Entries with other paths than a key may be left out, as far as the value at the key goes. -/
theorem at?_treeOf_filter (hkey : key ≠ []) (es : List (String × Setting)) :
    at? key (treeOf (es.filter fun e => !isApart (pathOf e.1) key)) = at? key (treeOf es) := by
  suffices hfold : ∀ target target', at? key (.table target) = at? key (.table target') →
      at? key (.table ((es.filter fun e => !isApart (pathOf e.1) key).foldl assign target)) =
        at? key (.table (es.foldl assign target')) from hfold [] [] rfl
  induction es with
  | nil => exact fun target target' h => h
  | cons e es ih =>
    intro target target' h
    rw [List.filter_cons, List.foldl_cons]
    split
    next =>
      refine ih _ _ ?_
      rw [at?_assign hkey, at?_assign hkey]
      exact at?_assignAt_congr h
    next hapart =>
      refine ih _ _ ?_
      rw [at?_assign hkey, at?_assignAt_of_isApart (by simpa using hapart)]
      exact h

/-- Later entries with other paths leave the value at a key alone. -/
theorem at?_treeOf_append (hkey : key ≠ []) (h : ∀ e ∈ after, isApart (pathOf e.1) key = true) :
    at? key (treeOf (before ++ after)) = at? key (treeOf before) := by
  have hnil : (after.filter fun e => !isApart (pathOf e.1) key) = [] :=
    List.filter_eq_nil_iff.mpr fun e he => by rw [h e he]; exact Bool.false_ne_true
  rw [← at?_treeOf_filter hkey, List.filter_append, hnil, List.append_nil, at?_treeOf_filter hkey]

/-- The last entry that has to do with a key sets its value. -/
theorem at?_treeOf_append_cons {e : String × Setting} (hkey : key ≠ [])
    (hv : ∀ es, e.2 ≠ .table es) (he : leadsTo (pathOf e.1) key = true)
    (h : ∀ e ∈ after, isApart (pathOf e.1) key = true) :
    at? key (treeOf (before ++ e :: after)) = some e.2 := by
  rw [List.append_cons, at?_treeOf_append hkey h, treeOf, List.foldl_append, List.foldl_cons,
    List.foldl_nil, at?_assign hkey, at?_assignAt_of_leadsTo hv he]

end

/-! ## Plain names -/

mutual

/-- Whether the tables in a value have their names in ascending order and in lower case. -/
def isPlain : Setting → Bool
  | .table es => decide (Entries.Sorted es) && arePlain es
  | _ => true

/-- Whether the names of entries are in lower case, and those in their values as well. -/
def arePlain : List (String × Setting) → Bool
  | [] => true
  | (name, v) :: rest => lowered name == name && isPlain v && arePlain rest

end

/-- Whether the names of entries are plain, those in their values as well, and none is a path. -/
def isPlainLayer (es : List (String × Setting)) : Bool :=
  decide (Entries.Sorted es) && es.all fun e => leadsTo (pathOf e.1) [e.1] && isPlain e.2

/-- A plain value under a name beyond all others comes at the end as it is, if entries in it do so
one by one. -/
theorem putOver_eq_concat {target : List (String × Setting)} {name k : String} {v : Setting}
    (hv : isPlain v = true)
    (ih : ∀ es, v = .table es → arePlain es = true → Entries.Sorted es → putAllOver [] es = es)
    (hname : lowered name = k) (hlt : ∀ e ∈ target, e.1 < k) :
    putOver target name v = target ++ [(k, v)] := by
  cases v with
  | table es =>
    obtain ⟨hsorted, hplain⟩ := Bool.and_eq_true_iff.mp hv
    rw [putOver, hname, Entries.lookup_of_forall_lt hlt, Entries.put_of_forall_lt hlt,
      Option.getD_none, entries, ih es rfl hplain (of_decide_eq_true hsorted)]
    cases es <;> rfl
  | _ =>
    rw [putOver_of_ne_table, hname, Entries.put_of_forall_lt hlt]
    exact fun es => nofun

/-- Plain entries in order come at the end as they are. -/
theorem putAllOver_of_arePlain : ∀ {es target : List (String × Setting)}, arePlain es = true →
    Entries.Sorted (target ++ es) → putAllOver target es = target ++ es
  | [], target, _, _ => by rw [putAllOver, List.append_nil]
  | (name, v) :: rest, target, hes, hsorted => by
    obtain ⟨hfirst, hrest⟩ := Bool.and_eq_true_iff.mp hes
    obtain ⟨hname, hv⟩ := Bool.and_eq_true_iff.mp hfirst
    have hlt : ∀ e ∈ target, e.1 < name := fun e he =>
      (List.pairwise_append.mp hsorted).2.2 e he _ (List.mem_cons_self ..)
    have hput : putOver target name v = target ++ [(name, v)] :=
      putOver_eq_concat hv (fun _ _ => @putAllOver_of_arePlain _ []) (eq_of_beq hname) hlt
    rw [List.append_cons] at hsorted
    rw [putAllOver, hput, putAllOver_of_arePlain hrest hsorted, List.append_assoc,
      List.singleton_append]

theorem assign_of_isPlain {target : List (String × Setting)} {e : String × Setting}
    (h : (leadsTo (pathOf e.1) [e.1] && isPlain e.2) = true) (hlt : ∀ e' ∈ target, e'.1 < e.1) :
    assign target e = target ++ [e] := by
  obtain ⟨hpath, hv⟩ := Bool.and_eq_true_iff.mp h
  obtain ⟨name, hname, hlowered⟩ := exists_eq_of_leadsTo_singleton hpath
  rw [assign, hname, assignAt]
  exact putOver_eq_concat hv (fun _ _ => @putAllOver_of_arePlain _ []) hlowered hlt

/-- The tree of plain entries has them as they are. -/
theorem treeOf_of_isPlainLayer {es : List (String × Setting)} (h : isPlainLayer es = true) :
    treeOf es = .table es := by
  obtain ⟨hsorted, hall⟩ := Bool.and_eq_true_iff.mp h
  suffices hfold : ∀ target, Entries.Sorted (target ++ es) →
      es.foldl assign target = target ++ es by
    rw [treeOf, hfold [] (of_decide_eq_true hsorted), List.nil_append]
  clear hsorted h
  induction es with
  | nil => exact fun target _ => (List.append_nil target).symm
  | cons e rest ih =>
    intro target hsorted
    obtain ⟨hfirst, hrest⟩ := Bool.and_eq_true_iff.mp hall
    have hlt : ∀ e' ∈ target, e'.1 < e.1 := fun e' he' =>
      (List.pairwise_append.mp hsorted).2.2 e' he' _ (List.mem_cons_self ..)
    rw [List.append_cons] at hsorted
    rw [List.foldl_cons, assign_of_isPlain hfirst hlt, ih hrest _ hsorted, List.append_assoc,
      List.singleton_append]

end Setting

end Rulebook
